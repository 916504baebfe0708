import ResourceTypes.Proofs.Value.Agreement

/-! # Reading JSON values in which keys are reordered

A JSON value has no tags, and read as any JSON value it comes back as it is, unless an object
repeats a key. Strings, flags and sequences are read alike from two values that are the same up to
the order of keys, and a record is read alike as soon as each of its fields is.
-/

namespace ResourceTypes

/-! ## Keys that are the same -/

namespace Json

theorem SameFields.keys_eq {fields others : List (String × Json)} (h : SameFields fields others) :
    fields.map (·.1) = others.map (·.1) := by
  induction others generalizing fields with
  | nil =>
      cases h
      rfl
  | cons field others ih =>
      cases h with
      | cons _ values => rw [List.map_cons, List.map_cons, ih values]

mutual

theorem Same.uniqueKeys {v w : Json} : Same v w → v.UniqueKeys → w.UniqueKeys
  | .null, h => h
  | .bool _, h => h
  | .num _, h => h
  | .str _, h => h
  | .arr items, h => items.uniqueKeys h
  | .obj values order, h => by
      refine ⟨?_, ?_⟩
      · rw [← (order.map _).nodup_iff, ← values.keys_eq]
        exact h.1
      · have hreordered := uniqueKeysFields_iff.mp (values.uniqueKeys h.2)
        exact uniqueKeysFields_iff.mpr fun field hf => hreordered field (order.mem_iff.mpr hf)

theorem SameItems.uniqueKeys {xs ys : List Json} :
    SameItems xs ys → UniqueKeysItems xs → UniqueKeysItems ys
  | .nil, h => h
  | .cons item items, h => ⟨item.uniqueKeys h.1, items.uniqueKeys h.2⟩

theorem SameFields.uniqueKeys {fields others : List (String × Json)} :
    SameFields fields others → UniqueKeysFields fields → UniqueKeysFields others
  | .nil, h => h
  | .cons value values, h => ⟨value.uniqueKeys h.1, values.uniqueKeys h.2⟩

end

end Json

/-! ## Values without tags -/

mutual

theorem Value.firstTag?_ofJson : ∀ v : Json, (Value.ofJson v).firstTag? = none
  | .null => rfl
  | .bool _ => rfl
  | .num (.int _) => rfl
  | .num (.float _) => rfl
  | .str _ => rfl
  | .arr items => Value.firstTagItem?_ofItems 0 items
  | .obj fields => Value.firstTagEntry?_ofFields fields

theorem Value.firstTagItem?_ofItems (index : Nat) :
    ∀ items : List Json, Value.firstTagItem? index (Value.ofItems items) = none
  | [] => rfl
  | v :: rest => by
      rw [Value.ofItems, Value.firstTagItem?, Value.firstTag?_ofJson v]
      exact Value.firstTagItem?_ofItems (index + 1) rest

theorem Value.firstTagEntry?_ofFields :
    ∀ fields : List (String × Json), Value.firstTagEntry? (Value.ofFields fields) = none
  | [] => rfl
  | (k, v) :: rest => by
      have hkey : Value.firstTag? (.str k) = none := rfl
      rw [Value.ofFields, Value.firstTagEntry?, hkey, Value.firstTag?_ofJson v]
      exact Value.firstTagEntry?_ofFields rest

end

/-! ## Any JSON value -/

theorem Keyed.set_of_not_mem {α : Type} {key : String} {fields : List (String × α)}
    (h : key ∉ fields.map (·.1)) (value : α) :
    Keyed.set key value fields = fields ++ [(key, value)] := by
  induction fields with
  | nil => rfl
  | cons field fields ih =>
      obtain ⟨k, v⟩ := field
      rw [List.map_cons, List.mem_cons, not_or] at h
      rw [Keyed.set, if_neg (Ne.symm h.1), ih h.2, List.cons_append]

theorem Keyed.keys_eq_of_forall₂ {α : Type} {V : α → α → Prop} {fields others : List (String × α)}
    (h : List.Forall₂ (fun x y => x.1 = y.1 ∧ V x.2 y.2) fields others) :
    fields.map (·.1) = others.map (·.1) := by
  rw [← List.forall₂_eq_eq_eq, List.forall₂_map_left_iff, List.forall₂_map_right_iff]
  exact h.imp fun _ _ => And.left

/-- A new key goes behind those that are there, and the remaining keys are new to all of them. -/
theorem Keyed.nodup_snoc {α β : Type} {done : List (String × α)} {key : String} {v : β}
    {rest : List (String × β)} (h : (done.map (·.1) ++ ((key, v) :: rest).map (·.1)).Nodup)
    (value : α) : key ∉ done.map (·.1) ∧
      ((done ++ [(key, value)]).map (·.1) ++ rest.map (·.1)).Nodup := by
  refine ⟨fun hm => (List.nodup_append.mp h).2.2 key hm key List.mem_cons_self rfl, ?_⟩
  rw [List.map_append, List.append_assoc]
  exact h

mutual

/-- Read as any JSON value, a JSON value without repeated keys comes back. -/
theorem Reading.anyJson_ofJson (r : Reading) :
    ∀ v : Json, v.UniqueKeys → r.anyJson (.ofJson v) = .ok v
  | .null, _ => rfl
  | .bool _, _ => rfl
  | .num (.int _), _ => rfl
  | .num (.float _), _ => rfl
  | .str _, _ => rfl
  | .arr items, h => by
      rw [Value.ofJson, Reading.anyJson, Reading.jsonItems_ofItems r 0 items h]
      rfl
  | .obj fields, h => by
      rw [Value.ofJson, Reading.anyJson, Reading.jsonFields_ofFields r .firstKey [] fields h.1 h.2]
      rfl

theorem Reading.jsonItems_ofItems (r : Reading) (index : Nat) :
    ∀ items : List Json, Json.UniqueKeysItems items →
      Reading.jsonItems r index (Value.ofItems items) = .ok items
  | [], _ => rfl
  | v :: rest, h => by
      rw [Value.ofItems, Reading.jsonItems, Reading.anyJson_ofJson r v h.1,
        Reading.jsonItems_ofItems r (index + 1) rest h.2]
      rfl

theorem Reading.jsonFields_ofFields (r : Reading) (wanted : Wanted) (done : List (String × Json)) :
    ∀ fields : List (String × Json), (done.map (·.1) ++ fields.map (·.1)).Nodup →
      Json.UniqueKeysFields fields →
        Reading.jsonFields r wanted done (Value.ofFields fields) = .ok (done ++ fields)
  | [], _, _ => by
      rw [List.append_nil]
      rfl
  | (k, v) :: rest, hd, h => by
      obtain ⟨hnew, hrest⟩ := Keyed.nodup_snoc hd v
      have hfields := Reading.jsonFields_ofFields r .string (done ++ [(k, v)]) rest hrest h.2
      rw [List.append_assoc, List.singleton_append] at hfields
      rw [Value.ofFields, Reading.jsonFields, Reading.anyJson_ofJson r v h.1]
      change Reading.jsonFields r .string (Keyed.set k v done) (Value.ofFields rest) = _
      rw [Keyed.set_of_not_mem hnew, hfields]

end

/-- Items that are any JSON values come back as well. -/
theorem Reading.items_anyJson (r : Reading) {items : List Json} (h : Json.UniqueKeysItems items)
    (index : Nat) : Reading.items r.anyJson index (Value.ofItems items) = .ok items := by
  induction items generalizing index with
  | nil => rfl
  | cons v rest ih =>
      rw [Value.ofItems, Reading.items, r.anyJson_ofJson v h.1, ih h.2]
      rfl

namespace Json.Same

open ReadResult

variable {v w : Json} {α β : Type} {R : α → β → Prop}

/-! ## Strings, flags and absent values -/

theorem string_agree (h : Same v w) (r : Reading) :
    Agree Eq (r.string (.ofJson v)) (r.string (.ofJson w)) := by
  cases h with
  | arr | obj => exact .error _ _
  | _ => exact .refl _

theorem boolean_agree (h : Same v w) (r : Reading) :
    Agree Eq (r.boolean (.ofJson v)) (r.boolean (.ofJson w)) := by
  cases h with
  | arr | obj => exact .error _ _
  | _ => exact .refl _

/-- Nothing but null is absent, and null is the same as null only. -/
theorem optional_agree (h : Same v w) {read : Value → ReadResult α} {read' : Value → ReadResult β}
    (hr : Agree R (read (.ofJson v)) (read' (.ofJson w))) :
    Agree (Option.Rel R) (Reading.optional read (.ofJson v))
      (Reading.optional read' (.ofJson w)) := by
  cases h with
  | null => exact .ok .none
  | num n =>
      cases n with
      | int | float => exact hr.map fun _ _ => .some
  | bool | str | arr | obj => exact hr.map fun _ _ => .some

end Json.Same

/-! ## Records -/

namespace Reading

variable {σ : Type} {r : Reading} {names : List String}
  {set : σ → String → Value → ReadResult σ}

def setField (names : List String) (set : σ → String → Value → ReadResult σ) (draft : σ)
    (field : String × Json) : ReadResult σ :=
  if field.1 ∈ names then ReadResult.within (.field field.1) (set draft field.1 (.ofJson field.2))
  else .ok draft

/-- Of distinct keys none has been seen before, so the entries are taken one after the other. -/
theorem fill_ofFields {fields : List (String × Json)} {seen : List String}
    (hd : (fields.map (·.1)).Nodup) (hs : ∀ key ∈ fields.map (·.1), key ∉ seen) (draft : σ) :
    r.fill names set seen draft (Value.ofFields fields) =
      fields.foldlM (setField names set) draft := by
  induction fields generalizing seen draft with
  | nil => rfl
  | cons field rest ih =>
      obtain ⟨k, v⟩ := field
      obtain ⟨hk, hrest⟩ := List.nodup_cons.mp hd
      obtain ⟨hseen, hlater⟩ := List.forall_mem_cons.mp hs
      have hname : r.fieldName names (.str k) = .ok (if k ∈ names then some k else none) := rfl
      rw [Value.ofFields, Reading.fill, hname, List.foldlM_cons, setField]
      by_cases hm : k ∈ names
      · have hnew : ∀ key ∈ rest.map (·.1), key ∉ k :: seen := fun key hkey hc =>
          (List.mem_cons.mp hc).elim (fun he => hk (he ▸ hkey)) (hlater key hkey)
        simp only [if_pos hm]
        change (if k ∈ seen then _ else _) = _
        rw [if_neg hseen]
        exact congrArg _ (funext fun draft => ih hrest hnew draft)
      · simp only [if_neg hm]
        exact ih hrest hlater draft

/-- Whether fields of different names may be set in either order. -/
def Commutes (names : List String) (set : σ → String → Value → ReadResult σ) : Prop :=
  ∀ draft name other v w, name ∈ names → other ∈ names → name ≠ other →
    ReadResult.Agree Eq (set draft name v >>= (set · other w))
      (set draft other w >>= (set · name v))

theorem Commutes.setField (h : Commutes names set) (draft : σ) (x y : String × Json)
    (hne : x.1 ≠ y.1) :
    ReadResult.Agree Eq (setField names set draft x >>= (setField names set · y))
      (setField names set draft y >>= (setField names set · x)) := by
  have hbare : ∀ draft (x y : String × Json),
      ReadResult.Agree Eq
        (ReadResult.within (.field x.1) (set draft x.1 (.ofJson x.2)) >>= fun draft =>
          ReadResult.within (.field y.1) (set draft y.1 (.ofJson y.2)))
        (set draft x.1 (.ofJson x.2) >>= (set · y.1 (.ofJson y.2))) := by
    intro draft x y
    refine .bind (.within_left _ _) fun draft draft' he => ?_
    rw [he]
    exact .within_left _ _
  unfold Reading.setField
  by_cases hx : x.1 ∈ names
  · by_cases hy : y.1 ∈ names
    · simp only [if_pos hx, if_pos hy]
      have hset := h draft x.1 y.1 (.ofJson x.2) (.ofJson y.2) hx hy hne
      exact (hbare draft x y).eq_trans (hset.eq_trans (hbare draft y x).symm)
    · simp only [if_pos hx, if_neg hy]
      change ReadResult.Agree Eq (_ >>= pure) _
      rw [bind_pure]
      exact .refl _
  · simp only [if_neg hx]
    change ReadResult.Agree Eq _ (_ >>= pure)
    rw [bind_pure]
    exact .refl _

/-- A record whose fields may be set in any order is filled alike from objects that are the same up
to the order of keys, as soon as single fields are set alike. -/
theorem fill_agree {V : Json → Json → Prop} {R : σ → σ → Prop} (hc : Commutes names set)
    (hset : ∀ draft draft' name v w, R draft draft' → V v w →
      ReadResult.Agree R (set draft name (.ofJson v)) (set draft' name (.ofJson w)))
    {fields reordered others : List (String × Json)}
    (hvalues : List.Forall₂ (fun x y => x.1 = y.1 ∧ V x.2 y.2) fields reordered)
    (horder : reordered.Perm others) (hd : (fields.map (·.1)).Nodup) {draft draft' : σ}
    (h : R draft draft') :
    ReadResult.Agree R (r.fill names set [] draft (Value.ofFields fields))
      (r.fill names set [] draft' (Value.ofFields others)) := by
  have hreordered : (reordered.map (·.1)).Nodup := Keyed.keys_eq_of_forall₂ hvalues ▸ hd
  have hothers : (others.map (·.1)).Nodup := (horder.map _).nodup_iff.mp hreordered
  have hfield : ∀ draft draft' (x y : String × Json), R draft draft' → (x.1 = y.1 ∧ V x.2 y.2) →
      ReadResult.Agree R (setField names set draft x) (setField names set draft' y) := by
    intro draft draft' x y hdraft hxy
    unfold setField
    rw [hxy.1]
    by_cases hm : y.1 ∈ names
    · rw [if_pos hm, if_pos hm]
      exact .within (hset _ _ _ _ _ hdraft hxy.2) _ _
    · rw [if_neg hm, if_neg hm]
      exact .ok hdraft
  have hpointwise := ReadResult.Agree.foldlM hfield hvalues h
  have hperm := ReadResult.Agree.foldlM_perm hc.setField horder hreordered draft'
  rw [fill_ofFields hd fun _ _ => List.not_mem_nil,
    fill_ofFields hothers fun _ _ => List.not_mem_nil]
  exact hpointwise.trans hperm fun _ _ _ hR he => he ▸ hR

end Reading

end ResourceTypes
