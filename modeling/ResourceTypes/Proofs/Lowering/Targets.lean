import ResourceTypes.Proofs.Lowering.Outcome
import ResourceTypes.Proofs.Sorted

/-! # Targets of references

Lowering notes the target of a reference and returns the name of it as the type. From there the name
goes into a field, below containers, and the field into a structure. A structure whose shape is
known is not lowered again, so nothing is noted there either. Hence every target that a model lists
is held by one of its fields.
-/

namespace ResourceTypes.Lowering

/-- Whether a field of some structures holds a name. -/
def Held (structs : List StructType) (name : String) : Prop :=
  ∃ type ∈ structs, ∃ field ∈ type.fields, name ∈ field.type.names

theorem Held.mono {structs larger : List StructType} (hs : structs ⊆ larger) {name : String}
    (h : Held structs name) : Held larger name := by
  obtain ⟨type, ht, hfield⟩ := h
  exact ⟨type, hs ht, hfield⟩

/-- Whether all targets noted between two states are among some names or held by a structure. -/
def Notes (s : State) (names : List String) (s' : State) : Prop :=
  ∀ name ∈ s'.refs, name ∈ s.refs ∨ name ∈ names ∨ Held s'.structs name

theorem Notes.refl (s : State) (names : List String) : Notes s names s :=
  fun _ hn => .inl hn

theorem Notes.trans {s s' s'' : State} {names others : List String} (h : Notes s names s')
    (hs : s'.structs ⊆ s''.structs) (h' : Notes s' others s'') : Notes s (names ++ others) s'' := by
  intro name hn
  rcases h' name hn with hn | hn | hn
  · rcases h name hn with hn | hn | hn
    · exact .inl hn
    · exact .inr (.inl (List.mem_append_left _ hn))
    · exact .inr (.inr (hn.mono hs))
  · exact .inr (.inl (List.mem_append_right _ hn))
  · exact .inr (.inr hn)

theorem Notes.addRef (s : State) (name : String) :
    Notes s [name] { s with refs := s.refs ++ [name] } := by
  intro other ho
  exact (List.mem_append.mp ho).imp_right .inl

/-- A structure holds what its fields do, whatever is made of its own name. -/
theorem Notes.addStruct {s s' : State} {fields : List Field} {type : StructType}
    (h : Notes s (fields.flatMap (·.type.names)) s') (hf : type.fields = sortFields fields)
    (names : List String) : Notes s names { s' with structs := s'.structs ++ [type] } := by
  intro name hn
  rcases h name hn with hn | hn | hn
  · exact .inl hn
  · obtain ⟨field, hfield, hname⟩ := List.mem_flatMap.mp hn
    have hmem : field ∈ type.fields := hf ▸ mem_sortFields.mpr hfield
    exact .inr (.inr ⟨type, List.mem_append_right _ (List.mem_singleton_self type), field, hmem,
      hname⟩)
  · exact .inr (.inr (hn.mono (List.subset_append_left _ _)))

theorem lowerEnum_notes (site : Site) (kind : ScalarKind) (format : Option String)
    (literals : List Json) (s : State) (names : List String) :
    Notes s names (lowerEnum site kind format literals s).2 := by
  unfold lowerEnum
  rcases s.registry.assign_cases (.ofLiterals literals) (site.candidates true) with
    ⟨name, -, ha⟩ | ⟨name, -, -, ha⟩
  · rw [ha]
    exact .refl s names
  · rw [ha]
    exact .refl s names

mutual

theorem lowerSchema_notes (site : Site) : ∀ (schema : Schema) (s : State),
    Notes s (lowerSchema site schema s).1.type.names (lowerSchema site schema s).2
  | .mk description shape, s => by
      rw [lowerSchema]
      exact lowerShape_notes site description shape s

theorem lowerShape_notes (site : Site) (description : Option String) :
    ∀ (shape : Shape) (s : State),
    Notes s (lowerShape site description shape s).1.type.names
      (lowerShape site description shape s).2
  | .scalar kind format, s => by
      rw [lowerShape]
      exact .refl s _
  | .enum kind format literals, s => by
      rw [lowerShape]
      exact lowerEnum_notes site kind format literals s _
  | .object properties additional preserveUnknown, s => by
      by_cases hc : isCondition properties = true
      · rw [lowerShape_condition hc]
        exact .refl s _
      by_cases he : properties.isEmpty = true
      · cases additional with
        | none =>
            rw [lowerShape_bare hc he]
            exact .refl s _
        | some schema =>
            rw [lowerShape_mapping hc he]
            exact lowerSchema_notes site schema s
      · rw [lowerShape_struct hc he]
        rcases s.registry.assign_cases (.ofProperties properties)
          (site.candidates !site.parentIsRoot) with ⟨name, -, ha⟩ | ⟨name, -, -, ha⟩
        · rw [ha]
          exact .refl s _
        · rw [ha]
          exact (lowerFields_notes site.kind (site.path ++ [site.key]) false properties _).addStruct
            rfl _
  | .array none, s => by
      rw [lowerShape]
      exact .refl s _
  | .array (some schema), s => by
      rw [lowerShape]
      exact lowerSchema_notes site schema s
  | .ref pointer, s => by
      rw [lowerShape]
      exact .addRef s _
  | .intOrString, s => by
      rw [lowerShape]
      exact .refl s _
  | .untyped, s => by
      rw [lowerShape]
      exact .refl s _

theorem lowerFields_notes (kind : String) (path : List String) (parentIsRoot : Bool) :
    ∀ (properties : List (String × Schema)) (s : State),
      Notes s ((lowerFields kind path parentIsRoot properties s).1.flatMap (·.type.names))
        (lowerFields kind path parentIsRoot properties s).2
  | [], s => by
      rw [lowerFields]
      exact .refl s _
  | (key, schema) :: rest, s => by
      rw [lowerFields, List.flatMap_cons]
      exact (lowerSchema_notes _ schema s).trans
        (lowerFields_outcome kind path parentIsRoot rest _).makes.structs_subset
        (lowerFields_notes kind path parentIsRoot rest _)

end

/-- Every target of a model is held by one of its fields. -/
theorem lower_refs_held (r : Naming.Registry) (schema : Schema) (d : Descriptor) :
    ∀ name ∈ (lower r schema d).1.refs,
      ∃ field ∈ (lower r schema d).1.fields, name ∈ field.type.names := by
  intro name hn
  unfold lower at hn ⊢
  have hnotes := lowerFields_notes d.kind [d.kind] true ((rootProperties? schema).getD [])
    ⟨r.reserveAll (ownNames d), [], [], []⟩ name (mem_sortedNames.mp hn)
  simp only [TypeModel.fields, List.flatMap_cons, List.mem_append, List.mem_flatMap,
    List.mem_mergeSort, mem_sortFields]
  rcases hnotes with hold | hheld | ⟨type, ht, field, hf, hname⟩
  · exact (List.not_mem_nil hold).elim
  · obtain ⟨field, hf, hname⟩ := List.mem_flatMap.mp hheld
    exact ⟨field, .inl hf, hname⟩
  · exact ⟨field, .inr ⟨type, ht, hf⟩, hname⟩

end ResourceTypes.Lowering
