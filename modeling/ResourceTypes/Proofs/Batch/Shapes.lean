import ResourceTypes.Proofs.Batch.Stages

/-! # The shapes of a batch

The structures and the enumerations that a batch can come to are listed from its definitions alone.
As long as no two of their texts have one digest, a name that the registry has for a signature is
that of a type that was made of just this shape.
-/

namespace ResourceTypes

/-- Whether distinct texts have distinct digests. -/
def Digest.CollisionFree (texts : List (List Char)) : Prop :=
  ∀ a ∈ texts, ∀ b ∈ texts, Digest.ofChars a = Digest.ofChars b → a = b

instance (texts : List (List Char)) : Decidable (Digest.CollisionFree texts) :=
  inferInstanceAs
    (Decidable (∀ a ∈ texts, ∀ b ∈ texts, Digest.ofChars a = Digest.ofChars b → a = b))

namespace Lowering

def Made.fragment : Made → List Char
  | .struct properties _ => Signature.propertiesText properties
  | .enum literals _ => Signature.literalsText literals

theorem Made.signature_eq (m : Made) : m.signature = Digest.ofChars m.fragment := by
  cases m <;> rfl

theorem Made.Sound.exists_node {s : State} {nodes : List Schema} {m : Made} (h : m.Sound s nodes) :
    ∃ node ∈ nodes, node.fragment? = some m.fragment := by
  cases m with
  | struct properties type =>
      obtain ⟨⟨node, hn, hp⟩, -⟩ := h
      exact ⟨node, hn, Schema.fragment_of_structProperties hp⟩
  | enum literals type =>
      obtain ⟨⟨node, hn, hl⟩, -⟩ := h
      exact ⟨node, hn, Schema.fragment_of_enumLiterals hl⟩

theorem Made.struct_of_fragment {m : Made} {properties : List (String × Schema)}
    (h : m.fragment = Signature.propertiesText properties) :
    ∃ found type, m = .struct found type ∧
      Signature.propertiesText found = Signature.propertiesText properties := by
  cases m with
  | struct found type => exact ⟨found, type, rfl, h⟩
  | enum literals type => exact (Signature.propertiesText_ne_literalsText _ _ h.symm).elim

theorem Made.enum_of_fragment {m : Made} {literals : List Json}
    (h : m.fragment = Signature.literalsText literals) :
    ∃ found type, m = .enum found type ∧
      Signature.literalsText found = Signature.literalsText literals := by
  cases m with
  | struct properties type => exact (Signature.propertiesText_ne_literalsText _ _ h).elim
  | enum found type => exact ⟨found, type, rfl, h⟩

theorem mem_rootProperties {schema : Schema} {property : String × Schema} :
    property ∈ rootProperties schema ↔ property.1 ∈ rootKeys ∧
      ∃ properties additional preserveUnknown,
        schema.shape = .object properties additional preserveUnknown ∧ property ∈ properties := by
  obtain ⟨description, shape⟩ := schema
  cases shape <;> simp [rootProperties, rootProperties?, Schema.shape, and_comm]

theorem wellFormed_rootProperties {schema : Schema} (h : schema.WellFormed)
    {property : String × Schema} (hp : property ∈ rootProperties schema) :
    property.2.WellFormed := by
  obtain ⟨-, properties, additional, preserveUnknown, hs, hm⟩ := mem_rootProperties.mp hp
  obtain ⟨description, shape⟩ := schema
  cases hs
  exact Schema.propertiesWellFormed_iff.mp h.2.1 property hm

theorem wellFormed_rootNodes {schema : Schema} (h : schema.WellFormed) {node : Schema}
    (hn : node ∈ rootNodes schema) : node.WellFormed := by
  obtain ⟨property, hp, hm⟩ := Schema.mem_propertyNodes.mp hn
  exact (wellFormed_rootProperties h hp).of_mem_nodes hm

end Lowering

namespace Compilation

open Lowering

def nodes (options : Options) (definitions : List Definition) : List Schema :=
  definitions.flatMap fun d =>
    match d.select options.version with
    | .ok (_, schema) => rootNodes schema
    | .error _ => []

/-- The texts that signatures are digests of. -/
def fragments (options : Options) (definitions : List Definition) : List (List Char) :=
  (nodes options definitions).filterMap Schema.fragment?

theorem wellFormed_nodes {options : Options} {definitions : List Definition}
    (h : ∀ d ∈ definitions, d.WellFormed) {node : Schema}
    (hn : node ∈ nodes options definitions) : node.WellFormed := by
  obtain ⟨d, hd, hn⟩ := List.mem_flatMap.mp hn
  split at hn
  next version schema hs => exact wellFormed_rootNodes ((h d hd).of_select hs) hn
  next => simp at hn

namespace Accepted

variable {options : Options} {definitions : List Definition} {b : Batch} {stages : List Stage}

theorem nodes_eq (h : Accepted options definitions b stages) :
    nodes options definitions = stages.flatMap fun g => rootNodes g.schema := by
  have hs := h.selects
  clear h
  induction hs with
  | nil => rfl
  | cons hsel _ ih =>
      obtain ⟨version, hselect, -⟩ := hsel
      rw [nodes, List.flatMap_cons, List.flatMap_cons, hselect]
      exact congrArg _ ih

theorem rootNodes_subset (h : Accepted options definitions b stages) {g : Stage}
    (hg : g ∈ stages) : rootNodes g.schema ⊆ nodes options definitions := by
  intro node hn
  rw [h.nodes_eq]
  exact List.mem_flatMap.mpr ⟨g, hg, hn⟩

/-- Without collisions, a type with the signature of a shape was made of a shape with its text. -/
theorem fragment_eq (h : Accepted options definitions b stages)
    (hf : Digest.CollisionFree (fragments options definitions)) {g : Stage} (hg : g ∈ stages)
    {m : Made} (hm : m ∈ g.made) {node : Schema} (hn : node ∈ nodes options definitions)
    {text : List Char} (ht : node.fragment? = some text)
    (he : m.signature = Digest.ofChars text) : m.fragment = text := by
  obtain ⟨r, ho⟩ := h.chain.of_mem hg
  obtain ⟨other, hother, hfragment⟩ := (ho.sound m hm).exists_node
  have hmade : m.fragment ∈ fragments options definitions :=
    List.mem_filterMap.mpr ⟨other, h.rootNodes_subset hg hother, hfragment⟩
  have htext : text ∈ fragments options definitions := List.mem_filterMap.mpr ⟨node, hn, ht⟩
  exact hf _ hmade _ htext (m.signature_eq ▸ he)

/-- The maker of a name that is known after a stage. -/
theorem made_upTo (h : Accepted options definitions b stages)
    (hf : Digest.CollisionFree (fragments options definitions)) {i : Nat} {g : Stage}
    (hi : stages[i]? = some g) {node : Schema} (hn : node ∈ nodes options definitions)
    {text : List Char} (ht : node.fragment? = some text) {name : String}
    (hm : g.state.registry.memo (Digest.ofChars text) = some name) :
    ∃ j ≤ i, ∃ g', stages[j]? = some g' ∧ ∃ m ∈ g'.made, m.fragment = text ∧ m.name = name := by
  rcases h.chain.made_upTo hi (mem_names_of_memo hm) with ⟨j, hj, g', hg', m, hmem, he⟩ | hold
  · obtain ⟨hs, hname⟩ := Prod.mk.inj he
    exact ⟨j, hj, g', hg', m, hmem,
      h.fragment_eq hf (List.mem_of_getElem? hg') hmem hn ht hs, hname⟩
  · rw [startRegistry_names] at hold
    simp at hold

/-- The maker of a name that is known in the end. -/
theorem made_of_memo (h : Accepted options definitions b stages)
    (hf : Digest.CollisionFree (fragments options definitions)) {node : Schema}
    (hn : node ∈ nodes options definitions) {text : List Char} (ht : node.fragment? = some text)
    {name : String}
    (hm : (run options definitions).registry.memo (Digest.ofChars text) = some name) :
    ∃ g ∈ stages, ∃ m ∈ g.made, m.fragment = text ∧ m.name = name := by
  rcases h.chain.mem_names.mp (mem_names_of_memo hm) with ⟨g, hg, m, hmem, he⟩ | hold
  · obtain ⟨hs, hname⟩ := Prod.mk.inj he
    exact ⟨g, hg, m, hmem, h.fragment_eq hf hg hmem hn ht hs, hname⟩
  · rw [startRegistry_names] at hold
    simp at hold

end Accepted

theorem sampleObject_wellFormed : sampleObject.WellFormed := by
  have henum : sampleEnum.WellFormed := by
    intro v hv
    rw [List.mem_singleton.mp hv]
    trivial
  exact ⟨List.pairwise_singleton _ _, ⟨henum, trivial⟩, trivial⟩

theorem sampleDefinitions_wellFormed : ∀ d ∈ sampleDefinitions, d.WellFormed := by
  have hkeys : ["spec", "status"].Pairwise (· < ·) := by decide
  intro d hd
  rcases List.mem_cons.mp hd with rfl | hd
  · exact .single ⟨List.pairwise_singleton _ _, ⟨sampleObject_wellFormed, trivial⟩, trivial⟩
  · rw [List.mem_singleton.mp hd]
    exact .single ⟨hkeys, ⟨sampleObject_wellFormed, trivial, trivial⟩, trivial⟩

theorem sampleDefinitions_collisionFree (optional : Bool) :
    Digest.CollisionFree (fragments ⟨none, optional⟩ sampleDefinitions) := by
  change Digest.CollisionFree (fragments ⟨none, false⟩ sampleDefinitions)
  decide +kernel

end Compilation

end ResourceTypes
