import ResourceTypes.Lowering.Compilation
import ResourceTypes.Proofs.Naming.Signature
import ResourceTypes.Proofs.Schema.WellFormed

/-! # What lowering comes to

The schemas that lowering can come to are listed without regard to what has a name already: below a
condition there is nothing to lower, and the schema for further properties counts only where there
are no declared ones. Each structure and each enumeration among them has a text that its signature
is the digest of.
-/

namespace ResourceTypes

mutual

/-- The schema itself and all that lowering comes to below it. -/
def Schema.nodes : Schema → List Schema
  | .mk description shape => .mk description shape :: Shape.nodes shape

def Shape.nodes : Shape → List Schema
  | .object properties additional _ =>
    if isCondition properties then []
    else if properties.isEmpty then Schema.optionNodes additional
    else Schema.propertyNodes properties
  | .array items => Schema.optionNodes items
  | _ => []

def Schema.propertyNodes : List (String × Schema) → List Schema
  | [] => []
  | (_, s) :: rest => Schema.nodes s ++ Schema.propertyNodes rest

def Schema.optionNodes : Option Schema → List Schema
  | none => []
  | some s => Schema.nodes s

end

namespace Schema

/-- The properties of an object that becomes a structure: it has some and is no condition. -/
def structProperties? (s : Schema) : Option (List (String × Schema)) :=
  match s.shape with
  | .object properties _ _ =>
    if isCondition properties || properties.isEmpty then none else some properties
  | _ => none

def enumLiterals? (s : Schema) : Option (List Json) :=
  match s.shape with
  | .enum _ _ literals => some literals
  | _ => none

def content? (s : Schema) : Option ((TypeRef → TypeRef) × Schema) :=
  match s.shape with
  | .array (some item) => some (.sequence, item)
  | .object properties (some value) _ =>
    if !isCondition properties && properties.isEmpty then some (.mapping, value) else none
  | _ => none

def fragment? (s : Schema) : Option (List Char) :=
  match s.structProperties?, s.enumLiterals? with
  | some properties, _ => some (Signature.propertiesText properties)
  | none, some literals => some (Signature.literalsText literals)
  | none, none => none

theorem mem_propertyNodes {properties : List (String × Schema)} {node : Schema} :
    node ∈ propertyNodes properties ↔ ∃ p ∈ properties, node ∈ p.2.nodes := by
  induction properties with
  | nil => simp [propertyNodes]
  | cons p properties ih => simp [propertyNodes, ih]

theorem self_mem_nodes (s : Schema) : s ∈ s.nodes := by
  obtain ⟨description, shape⟩ := s
  simp [nodes]

theorem shape_of_structProperties {s : Schema} {properties : List (String × Schema)}
    (h : s.structProperties? = some properties) :
    ∃ description additional preserveUnknown,
      s = .mk description (.object properties additional preserveUnknown) ∧
      isCondition properties = false ∧ properties.isEmpty = false := by
  obtain ⟨description, shape⟩ := s
  cases shape <;> simp only [structProperties?, Schema.shape, reduceCtorEq] at h
  rename_i found additional preserveUnknown
  split at h <;> simp only [reduceCtorEq, Option.some.injEq] at h
  next hc =>
    subst h
    simp only [Bool.or_eq_true, not_or, Bool.not_eq_true] at hc
    exact ⟨description, additional, preserveUnknown, rfl, hc⟩

theorem structProperties_of_object {description : Option String}
    {properties : List (String × Schema)} {additional : Option Schema} {preserveUnknown : Bool}
    (hc : isCondition properties = false) (he : properties.isEmpty = false) :
    (Schema.mk description (.object properties additional preserveUnknown)).structProperties? =
      some properties := by
  simp [structProperties?, Schema.shape, hc, he]

theorem shape_of_enumLiterals {s : Schema} {literals : List Json}
    (h : s.enumLiterals? = some literals) :
    ∃ description kind format, s = .mk description (.enum kind format literals) := by
  obtain ⟨description, shape⟩ := s
  cases shape <;> simp only [enumLiterals?, Schema.shape, reduceCtorEq, Option.some.injEq] at h
  exact ⟨description, _, _, by rw [h]⟩

theorem fragment_of_structProperties {s : Schema} {properties : List (String × Schema)}
    (h : s.structProperties? = some properties) :
    s.fragment? = some (Signature.propertiesText properties) := by
  simp only [fragment?, h]

theorem fragment_of_enumLiterals {s : Schema} {literals : List Json}
    (h : s.enumLiterals? = some literals) :
    s.fragment? = some (Signature.literalsText literals) := by
  obtain ⟨description, kind, format, rfl⟩ := shape_of_enumLiterals h
  rfl

/-- Lowering comes to every property of a structure that it comes to. -/
theorem nodes_of_structProperties {s : Schema} {properties : List (String × Schema)}
    (h : s.structProperties? = some properties) : s.nodes = s :: propertyNodes properties := by
  obtain ⟨description, additional, preserveUnknown, rfl, hc, he⟩ := shape_of_structProperties h
  simp [nodes, Shape.nodes, hc, he]

theorem shape_of_content {s content : Schema} {container : TypeRef → TypeRef}
    (h : s.content? = some (container, content)) :
    (∃ description, s = .mk description (.array (some content)) ∧ container = .sequence) ∨
      ∃ description properties preserveUnknown,
        s = .mk description (.object properties (some content) preserveUnknown) ∧
        ¬isCondition properties = true ∧ properties.isEmpty = true ∧ container = .mapping := by
  obtain ⟨description, shape⟩ := s
  unfold content? at h
  split at h
  next item hs =>
    cases h
    exact .inl ⟨description, congrArg _ hs, rfl⟩
  next properties value preserveUnknown hs =>
    split at h <;> simp only [reduceCtorEq, Option.some.injEq, Prod.mk.injEq] at h
    next hc =>
      obtain ⟨rfl, rfl⟩ := h
      simp only [Bool.and_eq_true, Bool.not_eq_true'] at hc
      exact .inr ⟨description, properties, preserveUnknown, congrArg _ hs,
        ne_true_of_eq_false hc.1, hc.2, rfl⟩
  next => cases h

theorem container_injective {s content : Schema} {container : TypeRef → TypeRef}
    (h : s.content? = some (container, content)) {t u : TypeRef} (ht : container t = container u) :
    t = u := by
  rcases shape_of_content h with ⟨_, _, rfl⟩ | ⟨_, _, _, _, _, _, rfl⟩
  · exact TypeRef.sequence.inj ht
  · exact TypeRef.mapping.inj ht

theorem nodes_of_content {s content : Schema} {container : TypeRef → TypeRef}
    (h : s.content? = some (container, content)) : s.nodes = s :: content.nodes := by
  rcases shape_of_content h with
    ⟨description, rfl, -⟩ | ⟨description, properties, preserveUnknown, rfl, hc, he, -⟩
  · rfl
  · rw [nodes, Shape.nodes, if_neg hc, if_pos he, optionNodes]

theorem nodes_of_leaf {s : Schema} (hp : s.structProperties? = none) (hc : s.content? = none) :
    s.nodes = [s] := by
  obtain ⟨description, shape⟩ := s
  cases shape with
  | object properties additional preserveUnknown =>
      by_cases hcond : isCondition properties = true
      · rw [nodes, Shape.nodes, if_pos hcond]
      by_cases he : properties.isEmpty = true
      · cases additional with
        | none => rw [nodes, Shape.nodes, if_neg hcond, if_pos he, optionNodes]
        | some value => simp [content?, shape, hcond, he] at hc
      · simp [structProperties?, shape, hcond, he] at hp
  | array items =>
      cases items with
      | none => rfl
      | some item => cases hc
  | _ => rfl

theorem sizeOf_lt_of_structProperties {s : Schema} {properties : List (String × Schema)}
    (h : s.structProperties? = some properties) {p : String × Schema} (hp : p ∈ properties) :
    sizeOf p.2 < sizeOf s := by
  obtain ⟨description, additional, preserveUnknown, rfl, -, -⟩ := shape_of_structProperties h
  have hm := List.sizeOf_lt_of_mem hp
  obtain ⟨key, value⟩ := p
  simp only [Schema.mk.sizeOf_spec, Shape.object.sizeOf_spec, Prod.mk.sizeOf_spec] at hm ⊢
  omega

theorem sizeOf_lt_of_content {s content : Schema} {container : TypeRef → TypeRef}
    (h : s.content? = some (container, content)) : sizeOf content < sizeOf s := by
  rcases shape_of_content h with
    ⟨description, rfl, -⟩ | ⟨description, properties, preserveUnknown, rfl, -, -, -⟩
  · simp only [Schema.mk.sizeOf_spec, Shape.array.sizeOf_spec, Option.some.sizeOf_spec]
    omega
  · simp only [Schema.mk.sizeOf_spec, Shape.object.sizeOf_spec, Option.some.sizeOf_spec]
    omega

/-- Induction along what lowering comes to: contents, and the properties of a structure. -/
@[elab_as_elim]
theorem lowering_induction {motive : Schema → Prop}
    (leaf : ∀ s : Schema, s.structProperties? = none → s.content? = none → motive s)
    (content : ∀ (s : Schema) (container : TypeRef → TypeRef) (c : Schema),
      s.content? = some (container, c) → motive c → motive s)
    (struct : ∀ (s : Schema) (properties : List (String × Schema)),
      s.structProperties? = some properties → (∀ p ∈ properties, motive p.2) → motive s)
    (s : Schema) : motive s := by
  cases hp : s.structProperties? with
  | some properties =>
      apply struct s properties hp
      intro p hm
      have := sizeOf_lt_of_structProperties hp hm
      exact lowering_induction leaf content struct p.2
  | none =>
      cases hc : s.content? with
      | none => exact leaf s hp hc
      | some found =>
          have := sizeOf_lt_of_content hc
          exact content s found.1 found.2 hc (lowering_induction leaf content struct found.2)
termination_by sizeOf s

/-- What lowering comes to below a schema, it comes to below every schema above. -/
theorem nodes_subset_of_mem {s node : Schema} (h : node ∈ s.nodes) : node.nodes ⊆ s.nodes := by
  induction s using lowering_induction with
  | leaf s hp hc =>
      rw [nodes_of_leaf hp hc, List.mem_singleton] at h
      rw [h]
      exact List.Subset.refl _
  | content s container c hc ih =>
      rw [nodes_of_content hc, List.mem_cons] at h
      rcases h with rfl | h
      · exact List.Subset.refl _
      · rw [nodes_of_content hc]
        exact List.subset_cons_of_subset _ (ih h)
  | struct s properties hp ih =>
      rw [nodes_of_structProperties hp, List.mem_cons] at h
      rcases h with rfl | h
      · exact List.Subset.refl _
      · obtain ⟨p, hm, hn⟩ := mem_propertyNodes.mp h
        rw [nodes_of_structProperties hp]
        intro other ho
        exact List.mem_cons_of_mem _ (mem_propertyNodes.mpr ⟨p, hm, ih p hm hn ho⟩)

theorem WellFormed.properties {s : Schema} (hs : s.WellFormed)
    {properties : List (String × Schema)} (h : s.structProperties? = some properties) :
    Keyed.Sorted properties ∧ ∀ p ∈ properties, p.2.WellFormed := by
  obtain ⟨description, additional, preserveUnknown, rfl, -, -⟩ := shape_of_structProperties h
  exact ⟨hs.1, propertiesWellFormed_iff.mp hs.2.1⟩

theorem WellFormed.literals {s : Schema} (hs : s.WellFormed) {literals : List Json}
    (h : s.enumLiterals? = some literals) : ∀ v ∈ literals, v.UniqueKeys := by
  obtain ⟨description, kind, format, rfl⟩ := shape_of_enumLiterals h
  exact hs

theorem WellFormed.content {s : Schema} (hs : s.WellFormed) {container : TypeRef → TypeRef}
    {c : Schema} (h : s.content? = some (container, c)) : c.WellFormed := by
  rcases shape_of_content h with
    ⟨description, rfl, -⟩ | ⟨description, properties, preserveUnknown, rfl, -, -, -⟩
  · exact hs
  · exact hs.2.2

theorem WellFormed.of_mem_nodes {s : Schema} (hs : s.WellFormed) {node : Schema}
    (h : node ∈ s.nodes) : node.WellFormed := by
  induction s using lowering_induction with
  | leaf s hp hc =>
      rw [nodes_of_leaf hp hc, List.mem_singleton] at h
      rwa [h]
  | content s container c hc ih =>
      rw [nodes_of_content hc, List.mem_cons] at h
      rcases h with rfl | h
      · exact hs
      · exact ih (hs.content hc) h
  | struct s properties hp ih =>
      rw [nodes_of_structProperties hp, List.mem_cons] at h
      rcases h with rfl | h
      · exact hs
      · obtain ⟨p, hm, hn⟩ := mem_propertyNodes.mp h
        exact ih p hm ((hs.properties hp).2 p hm) hn

end Schema

end ResourceTypes
