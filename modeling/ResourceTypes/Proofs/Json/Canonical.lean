import ResourceTypes.Proofs.Sorted

/-! # Values up to the order of their keys

Two values are the same up to the order of keys when they agree field by field after the fields of
one have been reordered, at every depth. Of values in which no object repeats a key, the canonical
form tells exactly this.
-/

namespace ResourceTypes.Json

mutual

/-- Equality in which the order of the fields of an object is of no account. -/
inductive Same : Json → Json → Prop
  | null : Same .null .null
  | bool (b : Bool) : Same (.bool b) (.bool b)
  | num (n : Number) : Same (.num n) (.num n)
  | str (s : String) : Same (.str s) (.str s)
  | arr {xs ys : List Json} (items : SameItems xs ys) : Same (.arr xs) (.arr ys)
  | obj {fields others reordered : List (String × Json)} (values : SameFields fields reordered)
      (order : reordered.Perm others) : Same (.obj fields) (.obj others)

inductive SameItems : List Json → List Json → Prop
  | nil : SameItems [] []
  | cons {x y : Json} {xs ys : List Json} (item : Same x y) (items : SameItems xs ys) :
      SameItems (x :: xs) (y :: ys)

inductive SameFields : List (String × Json) → List (String × Json) → Prop
  | nil : SameFields [] []
  | cons {key : String} {v w : Json} {fields others : List (String × Json)} (value : Same v w)
      (values : SameFields fields others) : SameFields ((key, v) :: fields) ((key, w) :: others)

end

mutual

/-- No object of the value repeats a key. -/
def UniqueKeys : Json → Prop
  | .arr items => UniqueKeysItems items
  | .obj fields => (fields.map (·.1)).Nodup ∧ UniqueKeysFields fields
  | _ => True

def UniqueKeysItems : List Json → Prop
  | [] => True
  | x :: xs => UniqueKeys x ∧ UniqueKeysItems xs

def UniqueKeysFields : List (String × Json) → Prop
  | [] => True
  | (_, v) :: fields => UniqueKeys v ∧ UniqueKeysFields fields

end

theorem canonicalItems_eq_map (items : List Json) : canonicalItems items = items.map canonical := by
  induction items with
  | nil => rfl
  | cons item items ih => rw [canonicalItems, List.map_cons, ih]

theorem canonicalFields_eq_map (fields : List (String × Json)) :
    canonicalFields fields = fields.map fun field => (field.1, canonical field.2) := by
  induction fields with
  | nil => rfl
  | cons field fields ih => simp [canonicalFields, ih]

theorem keys_canonicalFields (fields : List (String × Json)) :
    (canonicalFields fields).map (·.1) = fields.map (·.1) := by
  simp [canonicalFields_eq_map]

/-! ## The same values have one canonical form -/

mutual

theorem Same.canonical_eq {v w : Json} : Same v w → v.UniqueKeys → v.canonical = w.canonical
  | .null, _ => rfl
  | .bool _, _ => rfl
  | .num _, _ => rfl
  | .str _, _ => rfl
  | .arr items, hu => by
      simp only [UniqueKeys] at hu
      rw [canonical, canonical, items.canonical_eq hu]
  | @Same.obj fields _ reordered values order, hu => by
      simp only [UniqueKeys] at hu
      have hc := values.canonical_eq hu.2
      have hd : ((canonicalFields reordered).map (·.1)).Nodup := by
        rw [← hc, keys_canonicalFields]
        exact hu.1
      have hp := order.map fun field => (field.1, canonical field.2)
      rw [← canonicalFields_eq_map, ← canonicalFields_eq_map] at hp
      rw [canonical, canonical, hc, Keyed.sort_eq_of_perm hd hp]

theorem SameItems.canonical_eq {xs ys : List Json} :
    SameItems xs ys → UniqueKeysItems xs → canonicalItems xs = canonicalItems ys
  | .nil, _ => rfl
  | .cons item items, hu => by
      simp only [UniqueKeysItems] at hu
      rw [canonicalItems, canonicalItems, item.canonical_eq hu.1, items.canonical_eq hu.2]

theorem SameFields.canonical_eq {fields others : List (String × Json)} :
    SameFields fields others → UniqueKeysFields fields →
      canonicalFields fields = canonicalFields others
  | .nil, _ => rfl
  | .cons value values, hu => by
      simp only [UniqueKeysFields] at hu
      rw [canonicalFields, canonicalFields, value.canonical_eq hu.1, values.canonical_eq hu.2]

end

/-! ## Values of one canonical form are the same -/

/-- A permutation of an image is the image of a permutation. -/
theorem exists_perm_of_perm_map {α β : Type} {f : α → β} {xs : List α} {ys : List β}
    (h : ys.Perm (xs.map f)) : ∃ zs : List α, zs.Perm xs ∧ zs.map f = ys := by
  have hf : List.Forall₂ (fun y x => y = f x) (xs.map f) xs := by
    rw [List.forall₂_map_left_iff]
    exact List.forall₂_same.mpr fun _ _ => rfl
  obtain ⟨zs, hz, hp⟩ := List.perm_comp_forall₂ h hf
  refine ⟨zs, hp, ?_⟩
  have hz' : List.Forall₂ (· = ·) ys (zs.map f) := List.forall₂_map_right_iff.mpr hz
  exact (List.forall₂_eq_eq_eq ▸ hz' : ys = zs.map f).symm

mutual

theorem same_of_canonical_eq : ∀ {v w : Json}, v.canonical = w.canonical → Same v w
  | .null, w, h => by
      cases w <;> simp only [canonical, reduceCtorEq] at h
      exact .null
  | .bool b, w, h => by
      cases w <;> simp only [canonical, reduceCtorEq, bool.injEq] at h
      exact h ▸ .bool b
  | .num n, w, h => by
      cases w <;> simp only [canonical, reduceCtorEq, num.injEq] at h
      exact h ▸ .num n
  | .str s, w, h => by
      cases w <;> simp only [canonical, reduceCtorEq, str.injEq] at h
      exact h ▸ .str s
  | .arr xs, w, h => by
      cases w <;> simp only [canonical, reduceCtorEq, arr.injEq] at h
      exact .arr (sameItems_of_canonical_eq h)
  | .obj fields, w, h => by
      cases w <;> simp only [canonical, reduceCtorEq, obj.injEq] at h
      rename_i others
      have hp : (canonicalFields fields).Perm (canonicalFields others) :=
        (Keyed.sort_perm _).symm.trans (h ▸ Keyed.sort_perm _)
      rw [canonicalFields_eq_map others] at hp
      obtain ⟨reordered, ho, hr⟩ := exists_perm_of_perm_map hp
      rw [← canonicalFields_eq_map] at hr
      exact .obj (sameFields_of_canonical_eq hr.symm) ho

theorem sameItems_of_canonical_eq :
    ∀ {xs ys : List Json}, canonicalItems xs = canonicalItems ys → SameItems xs ys
  | [], ys, h => by
      cases ys <;> simp only [canonicalItems, reduceCtorEq] at h
      exact .nil
  | x :: xs, ys, h => by
      cases ys <;> simp only [canonicalItems, reduceCtorEq, List.cons.injEq] at h
      exact .cons (same_of_canonical_eq h.1) (sameItems_of_canonical_eq h.2)

theorem sameFields_of_canonical_eq : ∀ {fields others : List (String × Json)},
    canonicalFields fields = canonicalFields others → SameFields fields others
  | [], others, h => by
      rcases others with _ | ⟨⟨l, w⟩, others⟩
      · exact .nil
      · simp [canonicalFields] at h
  | (k, v) :: fields, others, h => by
      rcases others with _ | ⟨⟨l, w⟩, others⟩
      · simp [canonicalFields] at h
      · simp only [canonicalFields, List.cons.injEq, Prod.mk.injEq] at h
        obtain ⟨⟨rfl, hv⟩, hf⟩ := h
        exact .cons (same_of_canonical_eq hv) (sameFields_of_canonical_eq hf)

end

/-- The canonical form tells just what a value is up to the order of keys. -/
theorem canonical_eq_iff {v w : Json} (hv : v.UniqueKeys) : v.canonical = w.canonical ↔ Same v w :=
  ⟨same_of_canonical_eq, fun h => h.canonical_eq hv⟩

theorem Same.refl (v : Json) : Same v v :=
  same_of_canonical_eq rfl

end ResourceTypes.Json
