import ResourceTypes.Proofs.Value.Reading

/-! # Readings that agree

Two readings agree when both fail or both succeed with related results. Which of several faults is
met first is of no account. Steps that commute may then be taken in any order, and a record may be
filled from its entries in any order.
-/

namespace ResourceTypes

/-- Whether two readings both fail, or both succeed with related results. -/
inductive ReadResult.Agree {α β : Type} (R : α → β → Prop) : ReadResult α → ReadResult β → Prop
  | ok {x : α} {y : β} (related : R x y) : Agree R (.ok x) (.ok y)
  | error (e e' : ReadError) : Agree R (.error e) (.error e')

namespace ReadResult.Agree

variable {α β γ α' β' σ : Type} {R : α → β → Prop} {S : α' → β' → Prop} {a : ReadResult α}
  {b : ReadResult β}

theorem refl (a : ReadResult α) : Agree Eq a a := by
  cases a with
  | error e => exact .error e e
  | ok x => exact .ok rfl

theorem symm {a a' : ReadResult α} (h : Agree Eq a a') : Agree Eq a' a := by
  cases h with
  | error e e' => exact .error e' e
  | ok hxy => exact .ok hxy.symm

theorem trans {T : β → γ → Prop} {U : α → γ → Prop} {c : ReadResult γ} (h : Agree R a b)
    (h' : Agree T b c) (hU : ∀ x y z, R x y → T y z → U x z) : Agree U a c := by
  cases h with
  | error e e' =>
      cases h' with
      | error _ e'' => exact .error e e''
  | ok hxy =>
      cases h' with
      | ok hyz => exact .ok (hU _ _ _ hxy hyz)

theorem eq_trans {a' : ReadResult α} (h : Agree Eq a a') (h' : Agree R a' b) : Agree R a b :=
  h.trans h' fun _ _ _ he hxy => he ▸ hxy

theorem mono {R' : α → β → Prop} (h : Agree R a b) (hR : ∀ x y, R x y → R' x y) :
    Agree R' a b := by
  cases h with
  | error e e' => exact .error e e'
  | ok hxy => exact .ok (hR _ _ hxy)

theorem bind {f : α → ReadResult α'} {g : β → ReadResult β'} (h : Agree R a b)
    (hn : ∀ x y, R x y → Agree S (f x) (g y)) : Agree S (a >>= f) (b >>= g) := by
  cases h with
  | error e e' => exact .error e e'
  | ok hxy => exact hn _ _ hxy

theorem map {f : α → α'} {g : β → β'} (h : Agree R a b) (hn : ∀ x y, R x y → S (f x) (g y)) :
    Agree S (a.map f) (b.map g) := by
  cases h with
  | error e e' => exact .error e e'
  | ok hxy => exact .ok (hn _ _ hxy)

theorem within (h : Agree R a b) (step step' : PathStep) :
    Agree R (ReadResult.within step a) (ReadResult.within step' b) := by
  cases h with
  | error e e' => exact .error _ _
  | ok hxy => exact .ok hxy

/-- Where a fault lies is of no account. -/
theorem within_left (a : ReadResult α) (step : PathStep) :
    Agree Eq (ReadResult.within step a) a := by
  cases a with
  | error e => exact .error _ e
  | ok x => exact .ok rfl

theorem and_left {P : α → Prop} (h : Agree R a b) (hP : a.Ensures P) :
    Agree (fun x y => R x y ∧ P x) a b := by
  cases h with
  | error e e' => exact .error e e'
  | ok hxy => exact .ok ⟨hxy, hP _ rfl⟩

theorem exists_left {y : β} (h : Agree R a (.ok y)) : ∃ x, a = .ok x ∧ R x y := by
  cases h with
  | ok hxy => exact ⟨_, rfl, hxy⟩

/-! ## Related steps -/

theorem foldlM {V : α → β → Prop} {T : σ → σ → Prop} {f : σ → α → ReadResult σ}
    {g : σ → β → ReadResult σ}
    (hn : ∀ draft draft' x y, T draft draft' → V x y → Agree T (f draft x) (g draft' y))
    {xs : List α} {ys : List β} (h : List.Forall₂ V xs ys) {draft draft' : σ}
    (hd : T draft draft') : Agree T (xs.foldlM f draft) (ys.foldlM g draft') := by
  induction h generalizing draft draft' with
  | nil => exact .ok hd
  | cons hxy _ ih =>
      rw [List.foldlM_cons, List.foldlM_cons]
      exact .bind (hn _ _ _ _ hd hxy) fun _ _ hd => ih hd

theorem mapM {V : α → β → Prop} {f : α → ReadResult α'} {g : β → ReadResult β'}
    (hn : ∀ x y, V x y → Agree S (f x) (g y)) {xs : List α} {ys : List β}
    (h : List.Forall₂ V xs ys) : Agree (List.Forall₂ S) (xs.mapM f) (ys.mapM g) := by
  induction h with
  | nil => exact .ok .nil
  | cons hxy _ ih =>
      rw [List.mapM_cons, List.mapM_cons]
      exact .bind (hn _ _ hxy) fun _ _ hx => .bind ih fun _ _ hxs => .ok (.cons hx hxs)

/-! ## Steps in another order -/

/-- Steps with distinct keys, any two of which commute, may be taken in any order. -/
theorem foldlM_perm {step : σ → α → ReadResult σ} {key : α → String}
    (hc : ∀ draft x y, key x ≠ key y →
      Agree Eq (step draft x >>= (step · y)) (step draft y >>= (step · x)))
    {xs ys : List α} (h : xs.Perm ys) (hd : (xs.map key).Nodup) (draft : σ) :
    Agree Eq (xs.foldlM step draft) (ys.foldlM step draft) := by
  induction h generalizing draft with
  | nil => exact .refl _
  | cons x _ ih =>
      rw [List.foldlM_cons, List.foldlM_cons]
      refine .bind (.refl (step draft x)) fun draft draft' he => ?_
      rw [← he]
      exact ih (List.nodup_cons.mp hd).2 draft
  | swap x y l =>
      have hne : key y ≠ key x := List.ne_of_not_mem_cons (List.nodup_cons.mp hd).1
      simp only [List.foldlM_cons, ← bind_assoc]
      refine .bind (hc draft y x hne) fun draft draft' he => ?_
      rw [he]
      exact .refl _
  | trans hxy _ ih ih' =>
      have hd' := ((hxy.map key).nodup_iff).mp hd
      exact (ih hd draft).eq_trans (ih' hd' draft)

theorem mapM_perm {read : α → ReadResult β} {xs ys : List α} (h : xs.Perm ys) :
    Agree List.Perm (xs.mapM read) (ys.mapM read) := by
  induction h with
  | nil => exact .ok .nil
  | cons x _ ih =>
      rw [List.mapM_cons, List.mapM_cons]
      refine .bind (.refl (read x)) fun y y' he => .bind ih fun zs zs' hp => .ok ?_
      rw [he]
      exact hp.cons y'
  | swap x y l =>
      simp only [List.mapM_cons, bind_assoc, pure_bind]
      cases read x with
      | error e =>
          cases read y with
          | error e' => exact .error _ _
          | ok y' => exact .error _ _
      | ok x' =>
          cases read y with
          | error e' => exact .error _ _
          | ok y' =>
              change Agree _ (l.mapM read >>= fun zs => .ok (y' :: x' :: zs))
                (l.mapM read >>= fun zs => .ok (x' :: y' :: zs))
              refine .bind (.refl (l.mapM read)) fun zs zs' he => .ok ?_
              rw [he]
              exact .swap x' y' zs'
  | trans _ _ ih ih' => exact ih.trans ih' fun _ _ _ => List.Perm.trans

end ReadResult.Agree

end ResourceTypes
