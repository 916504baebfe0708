import ResourceTypes.Proofs.Lowering.Renaming
import ResourceTypes.Proofs.Lowering.Steps

/-! # The types of single schemas

A schema is a structure or an enumeration, which has a name, or a container, which has the type of
its contents inside, or it holds nothing. What holds nothing has an elementary type, unless it is a
reference. So a name in a type comes from a reference or from a shape inside the schema.
-/

namespace ResourceTypes

/-- The types of schemas that hold nothing and ask for no name. -/
inductive TypeRef.Elementary : TypeRef → Prop
  | scalar (kind : ScalarKind) (format : Option String) : Elementary (scalarType kind format)
  | bareObject (key : String) (preserveUnknown : Bool) :
      Elementary (Lowering.bareObjectType key preserveUnknown)
  | external (e : External) : Elementary (.external e)
  | list : Elementary (.sequence .any)

theorem TypeRef.Elementary.names_eq {t : TypeRef} (h : t.Elementary) : t.names = [] := by
  cases h with
  | scalar kind format => exact Lowering.scalarType_names kind format
  | bareObject key preserveUnknown => exact Lowering.bareObjectType_names key preserveUnknown
  | external e => rfl
  | list => rfl

namespace Schema

theorem isReference_of_content {s c : Schema} {container : TypeRef → TypeRef}
    (h : s.content? = some (container, c)) : s.isReference = c.isReference := by
  rcases shape_of_content h with
    ⟨description, rfl, -⟩ | ⟨description, properties, preserveUnknown, rfl, hc, he, -⟩
  · rfl
  · exact @Shape.isReference_mapping properties c preserveUnknown hc he

theorem isReference_of_structProperties {s : Schema} {properties : List (String × Schema)}
    (h : s.structProperties? = some properties) : s.isReference = false := by
  obtain ⟨description, additional, preserveUnknown, rfl, -, he⟩ := shape_of_structProperties h
  exact Shape.isReference_of_not_mapping (.inr (ne_true_of_eq_false he))

theorem isReference_of_enumLiterals {s : Schema} {literals : List Json}
    (h : s.enumLiterals? = some literals) : s.isReference = false := by
  obtain ⟨description, kind, format, rfl⟩ := shape_of_enumLiterals h
  rfl

theorem isReference_of_fragment {s : Schema} {text : List Char} (h : s.fragment? = some text) :
    s.isReference = false := by
  cases hp : s.structProperties? with
  | some properties => exact isReference_of_structProperties hp
  | none =>
      cases hl : s.enumLiterals? with
      | some literals => exact isReference_of_enumLiterals hl
      | none => simp [fragment?, hp, hl] at h

theorem exists_structProperties_of_fragment {s : Schema} {properties : List (String × Schema)}
    (h : s.fragment? = some (Signature.propertiesText properties)) :
    ∃ found, s.structProperties? = some found := by
  cases hp : s.structProperties? with
  | some found => exact ⟨found, rfl⟩
  | none =>
      cases hl : s.enumLiterals? with
      | some literals =>
          rw [fragment_of_enumLiterals hl, Option.some.injEq] at h
          exact (Signature.propertiesText_ne_literalsText _ _ h.symm).elim
      | none => simp [fragment?, hp, hl] at h

/-- A container has no text of its own. -/
theorem fragment_of_content {s c : Schema} {container : TypeRef → TypeRef}
    (h : s.content? = some (container, c)) : s.fragment? = none := by
  rcases shape_of_content h with
    ⟨description, rfl, -⟩ | ⟨description, properties, preserveUnknown, rfl, -, he, -⟩
  · rfl
  · simp [fragment?, structProperties?, enumLiterals?, shape, he]

theorem sizeOf_lt_of_mem_properties {properties : List (String × Schema)} {p : String × Schema}
    (hp : p ∈ properties) : sizeOf p.2 < sizeOf properties := by
  have hm := List.sizeOf_lt_of_mem hp
  obtain ⟨key, value⟩ := p
  simp only [Prod.mk.sizeOf_spec] at hm ⊢
  omega

theorem sizeOf_properties_lt {s : Schema} {properties : List (String × Schema)}
    (h : s.structProperties? = some properties) : sizeOf properties < sizeOf s := by
  obtain ⟨description, additional, preserveUnknown, rfl, -, -⟩ := shape_of_structProperties h
  simp only [Schema.mk.sizeOf_spec, Shape.object.sizeOf_spec]
  omega

end Schema

namespace Lowering

variable {memo : Memo} {key : String} {s : Schema} {lowered : Lowered}

/-- A schema that holds nothing and has no name is a reference or has an elementary type. -/
theorem translate_elementary (hp : s.structProperties? = none) (hc : s.content? = none)
    (he : s.enumLiterals? = none) (h : translate memo key s = some lowered) :
    lowered.type.Elementary ∨
      s.isReference = true ∧ ∃ pointer, lowered.type = .named (Naming.refName pointer) := by
  obtain ⟨description, shape⟩ := s
  cases shape with
  | scalar kind format =>
      cases h
      exact .inl (.scalar kind format)
  | enum kind format literals => cases he
  | object properties additional preserveUnknown =>
      rw [translate] at h
      by_cases hcond : isCondition properties = true
      · rw [translateShape_condition hcond] at h
        cases h
        exact .inl (.external _)
      by_cases hempty : properties.isEmpty = true
      · cases additional with
        | none =>
            rw [translateShape_bare hcond hempty] at h
            cases h
            exact .inl (.bareObject key preserveUnknown)
        | some value => simp [Schema.content?, Schema.shape, hcond, hempty] at hc
      · simp [Schema.structProperties?, Schema.shape, hcond, hempty] at hp
  | array items =>
      cases items with
      | none =>
          cases h
          exact .inl .list
      | some item => cases hc
  | ref pointer =>
      cases h
      exact .inr ⟨rfl, pointer, rfl⟩
  | intOrString =>
      cases h
      exact .inl (.external _)
  | untyped =>
      cases h
      exact .inl (.external _)

theorem names_of_content {c : Schema} {container : TypeRef → TypeRef}
    (h : s.content? = some (container, c)) (t : TypeRef) : (container t).names = t.names := by
  rcases Schema.shape_of_content h with ⟨_, _, rfl⟩ | ⟨_, _, _, _, _, _, rfl⟩
  · rfl
  · rfl

/-- A structure or an enumeration has the name of its shape as its type. -/
theorem translate_of_fragment {text : List Char} (hf : s.fragment? = some text)
    (h : translate memo key s = some lowered) :
    ∃ name, memo (Digest.ofChars text) = some name ∧ lowered.type = .named name := by
  cases hp : s.structProperties? with
  | some properties =>
      rw [Schema.fragment_of_structProperties hp] at hf
      cases hf
      rw [translate_of_structProperties hp] at h
      obtain ⟨name, hm, rfl⟩ := Option.map_eq_some_iff.mp h
      exact ⟨name, hm, rfl⟩
  | none =>
      cases hl : s.enumLiterals? with
      | some literals =>
          rw [Schema.fragment_of_enumLiterals hl] at hf
          cases hf
          rw [translate_of_enumLiterals hl] at h
          obtain ⟨name, hm, rfl⟩ := Option.map_eq_some_iff.mp h
          exact ⟨name, hm, rfl⟩
      | none => simp [Schema.fragment?, hp, hl] at hf

theorem memo_of_mem_names_of_fragment {text : List Char} (hf : s.fragment? = some text)
    (h : translate memo key s = some lowered) {name : String} (hn : name ∈ lowered.type.names) :
    memo (Digest.ofChars text) = some name := by
  obtain ⟨found, hm, htype⟩ := translate_of_fragment hf h
  rw [htype, TypeRef.names, List.mem_singleton] at hn
  rw [hn, hm]

/-- A name in a type that no reference asked for is that of a shape inside the schema. -/
theorem exists_node_of_name (href : s.isReference = false)
    (h : translate memo key s = some lowered) {name : String} (hn : name ∈ lowered.type.names) :
    ∃ node ∈ s.nodes, sizeOf node ≤ sizeOf s ∧ ∃ text, node.fragment? = some text ∧
      memo (Digest.ofChars text) = some name := by
  induction s using Schema.lowering_induction generalizing lowered with
  | leaf s hp hc =>
      cases he : s.enumLiterals? with
      | some literals =>
          have hf := Schema.fragment_of_enumLiterals he
          exact ⟨s, s.self_mem_nodes, Nat.le_refl _, _, hf, memo_of_mem_names_of_fragment hf h hn⟩
      | none =>
          rcases translate_elementary hp hc he h with helementary | ⟨htrue, -⟩
          · rw [helementary.names_eq] at hn
            simp at hn
          · rw [href] at htrue
            cases htrue
  | content s container c hc ih =>
      rw [Schema.isReference_of_content hc] at href
      rw [translate_of_content hc] at h
      obtain ⟨inner, hi, rfl⟩ := Option.map_eq_some_iff.mp h
      have hinner : name ∈ inner.type.names := names_of_content hc inner.type ▸ hn
      obtain ⟨node, hnode, hsize, htext⟩ := ih href hi hinner
      refine ⟨node, ?_, hsize.trans (Schema.sizeOf_lt_of_content hc).le, htext⟩
      rw [Schema.nodes_of_content hc]
      exact List.mem_cons_of_mem _ hnode
  | struct s properties hp =>
      have hf := Schema.fragment_of_structProperties hp
      exact ⟨s, s.self_mem_nodes, Nat.le_refl _, _, hf, memo_of_mem_names_of_fragment hf h hn⟩

end Lowering

end ResourceTypes
