import ResourceTypes.Proofs.Batch.Names
import ResourceTypes.Proofs.Batch.Shapes

/-! # A batch agrees with the translation

Lowering passes over a shape that has a name, so what it makes of a schema depends on what came
before. With the names that are known in the end, the translation needs no state at all and yields
the same fields, in every root and in the one structure that there is for each map of properties.
-/

namespace ResourceTypes

open Lowering Compilation

namespace Compilation

/-- Stages of well-formed definitions whose texts do not collide. -/
structure Faithful (options : Options) (definitions : List Definition) (b : Batch)
    (stages : List Stage) : Prop extends Accepted options definitions b stages where
  wellFormed : ∀ d ∈ definitions, d.WellFormed
  collisionFree : Digest.CollisionFree (fragments options definitions)

def memo (options : Options) (definitions : List Definition) : Memo :=
  (run options definitions).registry.memo

namespace Faithful

variable {options : Options} {definitions : List Definition} {b : Batch} {stages : List Stage}

/-- The structure that a stage has made of properties. -/
theorem struct_of_made (h : Faithful options definitions b stages) {g : Stage} (hg : g ∈ stages)
    {made : Made} (hmade : made ∈ g.made) {node : Schema} (hn : node ∈ nodes options definitions)
    {properties : List (String × Schema)} (hp : node.structProperties? = some properties)
    (hfragment : made.fragment = Signature.propertiesText properties) :
    ∃ type ∈ g.model.structs, type.name = made.name ∧ ∃ fields,
      Translates g.state.registry.memo properties fields ∧ type.fields = sortFields fields := by
  obtain ⟨found, type, rfl, htext⟩ := Made.struct_of_fragment hfragment
  obtain ⟨r, ho⟩ := h.chain.of_mem hg
  obtain ⟨⟨other, hother, hfound⟩, fields, ht, hfields, -⟩ := ho.sound _ hmade
  have hwf := wellFormed_nodes h.wellFormed hn
  have hwf' := wellFormed_nodes h.wellFormed (h.rootNodes_subset hg hother)
  have heq :=
    (Signature.propertiesText_inj (hwf'.properties hfound).1 (hwf.properties hp).1).mp htext
  subst heq
  refine ⟨type, ?_, rfl, fields, ht, hfields⟩
  rw [ho.structs.mem_iff]
  exact List.mem_filterMap.mpr ⟨_, hmade, rfl⟩

/-- The structure of properties that have a name. -/
theorem exists_struct (h : Faithful options definitions b stages) {node : Schema}
    (hn : node ∈ nodes options definitions) {properties : List (String × Schema)}
    (hp : node.structProperties? = some properties) {name : String}
    (hm : memo options definitions (.ofProperties properties) = some name) :
    ∃ g ∈ stages, ∃ type ∈ g.model.structs, type.name = name ∧ ∃ fields,
      Translates (memo options definitions) properties fields ∧
        type.fields = sortFields fields := by
  obtain ⟨g, hg, made, hmade, hfragment, rfl⟩ :=
    h.made_of_memo h.collisionFree hn (Schema.fragment_of_structProperties hp) hm
  obtain ⟨type, htype, hname, fields, ht, hfields⟩ := h.struct_of_made hg hmade hn hp hfragment
  exact ⟨g, hg, type, htype, hname, fields, ht.mono (h.chain.memo_of_mem hg), hfields⟩

/-- The enumeration of literals that have a name. -/
theorem exists_enum (h : Faithful options definitions b stages) {node : Schema}
    (hn : node ∈ nodes options definitions) {literals : List Json}
    (hl : node.enumLiterals? = some literals) {name : String}
    (hm : memo options definitions (.ofLiterals literals) = some name) :
    ∃ g ∈ stages, ∃ type ∈ g.model.enums, type.name = name := by
  obtain ⟨g, hg, made, hmade, hfragment, rfl⟩ :=
    h.made_of_memo h.collisionFree hn (Schema.fragment_of_enumLiterals hl) hm
  obtain ⟨found, type, rfl, -⟩ := Made.enum_of_fragment hfragment
  obtain ⟨r, ho⟩ := h.chain.of_mem hg
  refine ⟨g, hg, type, ?_, rfl⟩
  rw [ho.enums.mem_iff]
  exact List.mem_filterMap.mpr ⟨_, hmade, rfl⟩

theorem closed (h : Faithful options definitions b stages) :
    (memo options definitions).Closed (nodes options definitions) := by
  intro node hn properties name hp hm
  obtain ⟨g, -, type, -, -, fields, hfields, -⟩ := h.exists_struct hn hp hm
  exact ⟨fields, hfields⟩

theorem root_translates (h : Faithful options definitions b stages) {g : Stage}
    (hg : g ∈ stages) : ∃ fields,
      Translates (memo options definitions) (rootProperties g.schema) fields ∧
        g.model.root.fields = sortFields fields := by
  obtain ⟨r, ho⟩ := h.chain.of_mem hg
  obtain ⟨fields, ht, hf, -⟩ := ho.root
  exact ⟨fields, ht.mono (h.chain.memo_of_mem hg), hf⟩

/-- Whatever lowering comes to has a translation. -/
theorem translated (h : Faithful options definitions b stages) {node : Schema}
    (hn : node ∈ nodes options definitions) :
    ∃ key lowered, translate (memo options definitions) key node = some lowered := by
  rw [h.nodes_eq] at hn
  obtain ⟨g, hg, hn⟩ := List.mem_flatMap.mp hn
  obtain ⟨property, hproperty, hbelow⟩ := Schema.mem_propertyNodes.mp hn
  obtain ⟨fields, ht, -⟩ := h.root_translates hg
  obtain ⟨field, -, hfield⟩ := ht.exists_field hproperty
  obtain ⟨lowered, hl, -⟩ := Option.map_eq_some_iff.mp hfield
  refine h.closed.translated_below (fun other ho => ?_) hl hbelow
  exact h.rootNodes_subset hg (Schema.mem_propertyNodes.mpr ⟨property, hproperty, ho⟩)

theorem exists_struct_name (h : Faithful options definitions b stages) {node : Schema}
    (hn : node ∈ nodes options definitions) {properties : List (String × Schema)}
    (hp : node.structProperties? = some properties) :
    ∃ name, memo options definitions (.ofProperties properties) = some name := by
  obtain ⟨key, lowered, ht⟩ := h.translated hn
  rw [translate_of_structProperties hp] at ht
  obtain ⟨name, hm, -⟩ := Option.map_eq_some_iff.mp ht
  exact ⟨name, hm⟩

theorem exists_enum_name (h : Faithful options definitions b stages) {node : Schema}
    (hn : node ∈ nodes options definitions) {literals : List Json}
    (hl : node.enumLiterals? = some literals) :
    ∃ name, memo options definitions (.ofLiterals literals) = some name := by
  obtain ⟨key, lowered, ht⟩ := h.translated hn
  rw [translate_of_enumLiterals hl] at ht
  obtain ⟨name, hm, -⟩ := Option.map_eq_some_iff.mp ht
  exact ⟨name, hm⟩

/-- No two shapes have one name. -/
theorem memo_injective (h : Faithful options definitions b stages) {x y : Signature}
    {name : String} (hx : memo options definitions x = some name)
    (hy : memo options definitions y = some name) : x = y := by
  have hd : ((run options definitions).registry.names.map (·.2)).Nodup := by
    rw [h.chain.names_perm.nodup_iff, startRegistry_names, List.map_nil, List.append_nil,
      ← h.nestedNames_perm.nodup_iff]
    exact h.nestedNames_fresh.1
  have he := List.inj_on_of_nodup_map hd (mem_names_of_memo hx) (mem_names_of_memo hy) rfl
  exact (Prod.mk.inj he).1

/-- Shapes of one name have one text. -/
theorem fragment_eq_of_name (h : Faithful options definitions b stages) {s t : Schema}
    (hs : s ∈ nodes options definitions) (ht : t ∈ nodes options definitions)
    {text other : List Char} (hfs : s.fragment? = some text) (hft : t.fragment? = some other)
    {name : String} (hx : memo options definitions (Digest.ofChars text) = some name)
    (hy : memo options definitions (Digest.ofChars other) = some name) : text = other :=
  h.collisionFree text (List.mem_filterMap.mpr ⟨s, hs, hfs⟩) other
    (List.mem_filterMap.mpr ⟨t, ht, hft⟩) (h.memo_injective hx hy)

/-- Every structure of a batch is that of properties that lowering comes to. -/
theorem exists_properties (h : Faithful options definitions b stages) {g : Stage}
    (hg : g ∈ stages) {type : StructType} (ht : type ∈ g.model.structs) :
    ∃ node ∈ nodes options definitions, ∃ properties, node.structProperties? = some properties ∧
      memo options definitions (.ofProperties properties) = some type.name := by
  obtain ⟨r, ho⟩ := h.chain.of_mem hg
  obtain ⟨made, hmade, hm⟩ := List.mem_filterMap.mp (ho.structs.mem_iff.mp ht)
  cases made with
  | enum literals found => cases hm
  | struct properties found =>
      cases hm
      obtain ⟨⟨node, hnode, hp⟩, -⟩ := ho.sound _ hmade
      refine ⟨node, h.rootNodes_subset hg hnode, properties, hp, ?_⟩
      apply memo_of_mem_names (h.chain.signatures_nodup (by simp [startRegistry_names]))
      exact h.chain.mem_names.mpr (.inl ⟨g, hg, _, hmade, rfl⟩)

theorem exists_literals (h : Faithful options definitions b stages) {g : Stage}
    (hg : g ∈ stages) {type : EnumType} (ht : type ∈ g.model.enums) :
    ∃ node ∈ nodes options definitions, ∃ literals, node.enumLiterals? = some literals ∧
      memo options definitions (.ofLiterals literals) = some type.name := by
  obtain ⟨r, ho⟩ := h.chain.of_mem hg
  obtain ⟨made, hmade, hm⟩ := List.mem_filterMap.mp (ho.enums.mem_iff.mp ht)
  cases made with
  | struct properties found => cases hm
  | enum literals found =>
      cases hm
      obtain ⟨⟨node, hnode, hl⟩, -⟩ := ho.sound _ hmade
      refine ⟨node, h.rootNodes_subset hg hnode, literals, hl, ?_⟩
      apply memo_of_mem_names (h.chain.signatures_nodup (by simp [startRegistry_names]))
      exact h.chain.mem_names.mpr (.inl ⟨g, hg, _, hmade, rfl⟩)

end Faithful

end Compilation

/-! ## Agreement -/

/-- Whether a batch is what the translation by a memo makes of definitions. Every root has one field
for each property of `rootKeys`, every map of properties that becomes a structure has one structure
in the batch, with one field for each property, and nothing else stands in the batch. Enumerations
stand in it in the same way. -/
structure Batch.Agrees (options : Options) (definitions : List Definition) (memo : Memo)
    (b : Batch) : Prop where
  roots : List.Forall₂ (fun d m => ∃ version schema,
    d.select options.version = .ok (version, schema) ∧ ∃ fields,
      Translates memo (rootProperties schema) fields ∧ m.root.fields = sortFields fields)
    definitions b.resources
  structs : ∀ node ∈ nodes options definitions, ∀ properties,
    node.structProperties? = some properties → ∃ type fields,
      memo (.ofProperties properties) = some type.name ∧
      (b.resources.flatMap (·.structs)).filter (fun other => other.name = type.name) = [type] ∧
      Translates memo properties fields ∧ type.fields = sortFields fields
  enums : ∀ node ∈ nodes options definitions, ∀ literals,
    node.enumLiterals? = some literals → ∃ type,
      memo (.ofLiterals literals) = some type.name ∧
      (b.resources.flatMap (·.enums)).filter (fun other => other.name = type.name) = [type]
  onlyStructs : ∀ type ∈ b.resources.flatMap (·.structs), ∃ node ∈ nodes options definitions,
    ∃ properties, node.structProperties? = some properties ∧
      memo (.ofProperties properties) = some type.name
  onlyEnums : ∀ type ∈ b.resources.flatMap (·.enums), ∃ node ∈ nodes options definitions,
    ∃ literals, node.enumLiterals? = some literals ∧
      memo (.ofLiterals literals) = some type.name

/-- Every accepted batch of required fields is what the translation makes of its definitions, by the
names that the registry has in the end. -/
theorem batch_agrees_with_translation {version : Option String} {definitions : List Definition}
    {b : Batch} (hw : ∀ d ∈ definitions, d.WellFormed)
    (hcf : Digest.CollisionFree (fragments ⟨version, false⟩ definitions))
    (h : (compileBatch ⟨version, false⟩ definitions).batch = .ok b) :
    b.Agrees ⟨version, false⟩ definitions
      (run ⟨version, false⟩ definitions).registry.memo := by
  obtain ⟨stages, ha⟩ := exists_stages h
  have hf : Faithful ⟨version, false⟩ definitions b stages := ⟨ha, hw, hcf⟩
  have hresources : b.resources = stages.map (·.model) := ha.resources
  have hstructs : ∀ {type}, type ∈ b.resources.flatMap (·.structs) ↔
      ∃ g ∈ stages, type ∈ g.model.structs := by
    simp [hresources]
  have henums : ∀ {type}, type ∈ b.resources.flatMap (·.enums) ↔
      ∃ g ∈ stages, type ∈ g.model.enums := by
    simp [hresources]
  refine ⟨?_, ?_, ?_, ?_, ?_⟩
  · rw [hresources, List.forall₂_map_right_iff]
    refine List.forall₂_iff_zip.mpr ⟨ha.selects.length_eq, fun {d g} hz => ?_⟩
    obtain ⟨selected, hs, -⟩ := List.forall₂_zip ha.selects hz
    exact ⟨selected, g.schema, hs, hf.root_translates (List.of_mem_zip hz).2⟩
  · intro node hn properties hp
    obtain ⟨name, hm⟩ := hf.exists_struct_name hn hp
    obtain ⟨g, hg, type, ht, rfl, fields, hfields, hsorted⟩ := hf.exists_struct hn hp hm
    exact ⟨type, fields, hm, filter_name_eq ha.structNames_nodup (hstructs.mpr ⟨g, hg, ht⟩),
      hfields, hsorted⟩
  · intro node hn literals hl
    obtain ⟨name, hm⟩ := hf.exists_enum_name hn hl
    obtain ⟨g, hg, type, ht, rfl⟩ := hf.exists_enum hn hl hm
    exact ⟨type, hm, filter_name_eq ha.enumNames_nodup (henums.mpr ⟨g, hg, ht⟩)⟩
  · intro type ht
    obtain ⟨g, hg, ht⟩ := hstructs.mp ht
    exact hf.exists_properties hg ht
  · intro type ht
    obtain ⟨g, hg, ht⟩ := henums.mp ht
    exact hf.exists_literals hg ht

theorem sampleDefinitions_agrees :
    (∀ d ∈ sampleDefinitions, d.WellFormed) ∧
      Digest.CollisionFree (fragments ⟨none, false⟩ sampleDefinitions) ∧
      ∃ b, (compileBatch ⟨none, false⟩ sampleDefinitions).batch = .ok b ∧
        b.Agrees ⟨none, false⟩ sampleDefinitions
          (run ⟨none, false⟩ sampleDefinitions).registry.memo := by
  have hw := sampleDefinitions_wellFormed
  have hcf := sampleDefinitions_collisionFree false
  obtain ⟨b, hb⟩ := sampleDefinitions_accepted false
  exact ⟨hw, hcf, b, hb, batch_agrees_with_translation hw hcf hb⟩

end ResourceTypes
