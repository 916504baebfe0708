import ResourceTypes.Proofs.Batch.Acceptance
import ResourceTypes.Proofs.Batch.Sharing
import ResourceTypes.Proofs.Lowering.Constants
import ResourceTypes.Proofs.Lowering.Renaming

/-! # The order of a batch

Which resource comes first decides which name a shape gets, and where the type of a shared shape
stands. It decides nothing else: two orders of the same definitions come to the same shapes, so the
names of the one batch correspond to those of the other one to one.
-/

namespace ResourceTypes

open Lowering Compilation

def Batch.structNames (b : Batch) : List String :=
  (b.resources.flatMap (·.structs)).map (·.name)

def Batch.enumNames (b : Batch) : List String :=
  (b.resources.flatMap (·.enums)).map (·.name)

/-- Structures whose fields differ in names stay so when their fields become optional. -/
theorem StructType.finish_rename (options : Options) {s other : StructType}
    {rename : String → String} {kept : List String}
    (h : other.fields = s.fields.map (Field.rename rename kept)) :
    (options.finishStruct other).fields =
      (options.finishStruct s).fields.map (Field.rename rename kept) := by
  unfold Options.finishStruct
  split
  · simp only [StructType.relax, h, List.map_map]
    exact List.map_congr_left fun field _ => (Field.relax_rename field).symm
  · exact h

namespace Compilation

variable {options : Options} {definitions definitions' : List Definition} {b b' : Batch}
  {stages stages' : List Stage}

/-! ## Acceptance -/

theorem typeNames_perm (hp : definitions.Perm definitions') :
    (typeNames definitions).Perm (typeNames definitions') :=
  (hp.map _).append (hp.map _)

theorem Acceptable.perm (hp : definitions.Perm definitions') (h : Acceptable options definitions) :
    Acceptable options definitions' where
  names := (typeNames_perm hp).nodup_iff.mp h.names
  modules := (hp.map _).nodup_iff.mp h.modules
  agree := by
    obtain ⟨group, version, ho⟩ := h.agree
    exact ⟨group, version, fun d hd => ho d (hp.mem_iff.mpr hd)⟩

/-- Definitions are a batch in every order or in none. -/
theorem accepted_perm (hp : definitions.Perm definitions') :
    (∃ b, (compileBatch options definitions).batch = .ok b) ↔
      ∃ b, (compileBatch options definitions').batch = .ok b := by
  rw [accepted_iff, accepted_iff]
  exact ⟨Acceptable.perm hp, Acceptable.perm hp.symm⟩

theorem nodes_perm (hp : definitions.Perm definitions') :
    (nodes options definitions).Perm (nodes options definitions') :=
  hp.flatMap fun _ _ => .refl _

theorem collisionFree_perm (hp : definitions.Perm definitions')
    (h : Digest.CollisionFree (fragments options definitions)) :
    Digest.CollisionFree (fragments options definitions') := by
  have hf : (fragments options definitions).Perm (fragments options definitions') :=
    (nodes_perm hp).filterMap _
  intro text ht other ho
  exact h text (hf.mem_iff.mpr ht) other (hf.mem_iff.mpr ho)

/-! ## The shapes of one batch -/

def structSignatures (options : Options) (definitions : List Definition) : Set Signature :=
  {signature | ∃ node ∈ nodes options definitions, ∃ properties,
    node.structProperties? = some properties ∧ signature = .ofProperties properties}

def enumSignatures (options : Options) (definitions : List Definition) : Set Signature :=
  {signature | ∃ node ∈ nodes options definitions, ∃ literals,
    node.enumLiterals? = some literals ∧ signature = .ofLiterals literals}

theorem structSignatures_perm (hp : definitions.Perm definitions') :
    structSignatures options definitions = structSignatures options definitions' := by
  unfold structSignatures
  simp only [(nodes_perm hp).mem_iff]

theorem enumSignatures_perm (hp : definitions.Perm definitions') :
    enumSignatures options definitions = enumSignatures options definitions' := by
  unfold enumSignatures
  simp only [(nodes_perm hp).mem_iff]

/-- A name that is known in the end is that of a shape. -/
theorem Accepted.node_of_memo (h : Accepted options definitions b stages) {signature : Signature}
    {name : String} (hm : memo options definitions signature = some name) :
    signature ∈ structSignatures options definitions ∪ enumSignatures options definitions := by
  rcases h.chain.mem_names.mp (mem_names_of_memo hm) with ⟨g, hg, made, hmade, he⟩ | hold
  · obtain ⟨r, ho⟩ := h.chain.of_mem hg
    have hsound := ho.sound _ hmade
    cases he
    cases made with
    | struct properties type =>
        obtain ⟨⟨node, hn, hp⟩, -⟩ := hsound
        exact .inl ⟨node, h.rootNodes_subset hg hn, properties, hp, rfl⟩
    | enum literals type =>
        obtain ⟨⟨node, hn, hl⟩, -⟩ := hsound
        exact .inr ⟨node, h.rootNodes_subset hg hn, literals, hl, rfl⟩
  · rw [startRegistry_names] at hold
    simp at hold

namespace Faithful

theorem exists_name_of_struct (h : Faithful options definitions b stages) {signature : Signature}
    (hs : signature ∈ structSignatures options definitions) :
    ∃ name, memo options definitions signature = some name := by
  obtain ⟨node, hn, properties, hp, rfl⟩ := hs
  exact h.exists_struct_name hn hp

theorem exists_name_of_enum (h : Faithful options definitions b stages) {signature : Signature}
    (hs : signature ∈ enumSignatures options definitions) :
    ∃ name, memo options definitions signature = some name := by
  obtain ⟨node, hn, literals, hl, rfl⟩ := hs
  exact h.exists_enum_name hn hl

/-- The structure that properties have in a batch, where their schema stands. -/
theorem placed_struct (h : Faithful options definitions b stages) {node : Schema}
    (hn : node ∈ nodes options definitions) {properties : List (String × Schema)}
    (hp : node.structProperties? = some properties) {name : String}
    (hm : memo options definitions (.ofProperties properties) = some name) :
    Placed.Named options definitions b node name := by
  obtain ⟨type, hplaced⟩ := h.exists_placed hn
  obtain ⟨found, hmemo, hstrip⟩ := (h.translated_of_placed hplaced).struct hp
  exact ⟨type, hplaced, Option.some.inj (hmemo.symm.trans hm) ▸ hstrip⟩

/-- The enumeration that literals have in a batch, which was made of literals with their text. -/
theorem finished_enum (h : Faithful options definitions b stages) {node : Schema}
    (hn : node ∈ nodes options definitions) {literals : List Json}
    (hl : node.enumLiterals? = some literals) {name : String}
    (hm : memo options definitions (.ofLiterals literals) = some name) :
    ∃ type ∈ b.resources.flatMap (·.enums), type.name = name ∧
      ∃ found, (∀ v ∈ found, v.UniqueKeys) ∧
        Signature.literalsText found = Signature.literalsText literals ∧
        type.constants = enumConstants name found := by
  obtain ⟨g, hg, made, hmade, hfragment, rfl⟩ :=
    h.made_of_memo h.collisionFree hn (Schema.fragment_of_enumLiterals hl) hm
  obtain ⟨found, type, rfl, htext⟩ := Made.enum_of_fragment hfragment
  obtain ⟨r, ho⟩ := h.chain.of_mem hg
  obtain ⟨⟨other, hother, hfound⟩, hconstants⟩ := ho.sound _ hmade
  have hwf := wellFormed_nodes h.wellFormed (h.rootNodes_subset hg hother)
  refine ⟨type, ?_, rfl, found, hwf.literals hfound, htext, hconstants⟩
  rw [h.resources]
  refine List.mem_flatMap.mpr ⟨_, List.mem_map_of_mem hg, ?_⟩
  rw [TypeModel.finish_enums, ho.enums.mem_iff]
  exact List.mem_filterMap.mpr ⟨_, hmade, rfl⟩

theorem exists_properties_of_struct (h : Faithful options definitions b stages) {type : StructType}
    (ht : type ∈ b.resources.flatMap (·.structs)) :
    ∃ node ∈ nodes options definitions, ∃ properties, node.structProperties? = some properties ∧
      memo options definitions (.ofProperties properties) = some type.name := by
  rw [h.resources, List.flatMap_map] at ht
  obtain ⟨g, hg, ht⟩ := List.mem_flatMap.mp ht
  rw [TypeModel.finish_structs] at ht
  obtain ⟨s, hs, rfl⟩ := List.mem_map.mp ht
  rw [StructType.finish_name]
  exact h.exists_properties hg hs

theorem exists_literals_of_enum (h : Faithful options definitions b stages) {type : EnumType}
    (ht : type ∈ b.resources.flatMap (·.enums)) :
    ∃ node ∈ nodes options definitions, ∃ literals, node.enumLiterals? = some literals ∧
      memo options definitions (.ofLiterals literals) = some type.name := by
  rw [h.resources, List.flatMap_map] at ht
  obtain ⟨g, hg, ht⟩ := List.mem_flatMap.mp ht
  rw [TypeModel.finish_enums] at ht
  exact h.exists_literals hg ht

theorem structNames_eq (h : Faithful options definitions b stages) :
    {name | name ∈ b.structNames} =
      {name | ∃ signature ∈ structSignatures options definitions,
        memo options definitions signature = some name} := by
  ext name
  constructor
  · intro hname
    obtain ⟨type, ht, rfl⟩ := List.mem_map.mp hname
    obtain ⟨node, hn, properties, hp, hm⟩ := h.exists_properties_of_struct ht
    exact ⟨_, ⟨node, hn, properties, hp, rfl⟩, hm⟩
  · rintro ⟨_, ⟨node, hn, properties, hp, rfl⟩, hm⟩
    obtain ⟨s, hs, rfl, -⟩ := h.finished_struct hn hp hm
    exact List.mem_map_of_mem hs

theorem enumNames_eq (h : Faithful options definitions b stages) :
    {name | name ∈ b.enumNames} =
      {name | ∃ signature ∈ enumSignatures options definitions,
        memo options definitions signature = some name} := by
  ext name
  constructor
  · intro hname
    obtain ⟨type, ht, rfl⟩ := List.mem_map.mp hname
    obtain ⟨node, hn, literals, hl, hm⟩ := h.exists_literals_of_enum ht
    exact ⟨_, ⟨node, hn, literals, hl, rfl⟩, hm⟩
  · rintro ⟨_, ⟨node, hn, literals, hl, rfl⟩, hm⟩
    obtain ⟨type, ht, rfl, -⟩ := h.finished_enum hn hl hm
    exact List.mem_map_of_mem ht

/-- The one resource of a definition, with the translation of its properties. -/
theorem finished_root (h : Faithful options definitions b stages) {d : Definition}
    (hd : d ∈ definitions) :
    ∃ version schema m fields, d.select options.version = .ok (version, schema) ∧
      b.resources.filter (fun m => m.root.name = d.kind) = [m] ∧
      m.descriptor = d.descriptor version.name ∧
      Translates (memo options definitions) (rootProperties schema) fields ∧
      m.root.fields = sortFields fields := by
  obtain ⟨i, hi⟩ := List.mem_iff_getElem?.mp hd
  obtain ⟨g, hg, version, hselect, hdescriptor⟩ := h.exists_stage_of_definition hi
  have hgmem := List.mem_of_getElem? hg
  obtain ⟨r, ho⟩ := h.chain.of_mem hgmem
  obtain ⟨fields, ht, hf⟩ := h.root_translates hgmem
  have hm := List.mem_of_getElem? (h.resource_of_stage hg)
  have hkind : (options.finish g.model).root.name = d.kind := by
    rw [TypeModel.finish_root, ho.rootName, hdescriptor]
    rfl
  have hnodup : (b.resources.map (·.root.name)).Nodup := by
    rw [h.rootNames_eq]
    exact h.typeNames_nodup.of_append_left
  refine ⟨version, g.schema, options.finish g.model, fields, hselect, ?_, ?_, ht, ?_⟩
  · rw [← hkind]
    exact filter_name_eq hnodup hm
  · rw [TypeModel.finish_descriptor, ho.descriptor, hdescriptor]
  · rw [TypeModel.finish_root, hf]

/-! ## Two orders -/

/-- A shape that has a name in the one order has one in the other. -/
theorem exists_renames (h : Faithful options definitions b stages)
    (h' : Faithful options definitions' b' stages') (hp : definitions.Perm definitions') :
    ∃ rename, (memo options definitions).Renames rename (memo options definitions') := by
  refine Memo.exists_renames (fun hx hy => h.memo_injective hx hy) fun signature name hm => ?_
  rcases h.node_of_memo hm with hs | hs
  · exact h'.exists_name_of_struct (structSignatures_perm hp ▸ hs)
  · exact h'.exists_name_of_enum (enumSignatures_perm hp ▸ hs)

end Faithful

end Compilation

/-! ## Batches up to names -/

/-- Whether a batch is another one under other names. The names of structures and those of
enumerations correspond one to one. The one resource of a kind has the same identity and the same
root fields, a structure stands where its image does and has the same fields, all but for names, and
an enumeration has the values of its image. Types that references ask for are the same by name. -/
structure Batch.Renames (options : Options) (definitions definitions' : List Definition)
    (b b' : Batch) (rename : String → String) : Prop where
  structNames : Set.BijOn rename {name | name ∈ b.structNames} {name | name ∈ b'.structNames}
  enumNames : Set.BijOn rename {name | name ∈ b.enumNames} {name | name ∈ b'.enumNames}
  roots : ∀ d ∈ definitions, ∃ version schema m m',
    d.select options.version = .ok (version, schema) ∧
    b.resources.filter (fun m => m.root.name = d.kind) = [m] ∧
    b'.resources.filter (fun m => m.root.name = d.kind) = [m'] ∧
    m'.descriptor = m.descriptor ∧
    m'.root.fields =
      m.root.fields.map (Field.rename rename (Schema.referenceKeys (rootProperties schema)))
  structs : ∀ type ∈ b.resources.flatMap (·.structs),
    ∃ type' ∈ b'.resources.flatMap (·.structs), type'.name = rename type.name ∧
      ∃ s properties, s.structProperties? = some properties ∧
        Placed.Named options definitions b s type.name ∧
        Placed.Named options definitions' b' s type'.name ∧
        type'.fields = type.fields.map (Field.rename rename (Schema.referenceKeys properties))
  enums : ∀ type ∈ b.resources.flatMap (·.enums),
    ∃ type' ∈ b'.resources.flatMap (·.enums), type'.name = rename type.name ∧
      Json.SameSet (type.constants.map (·.value)) (type'.constants.map (·.value))

namespace Compilation.Faithful

variable {options : Options} {definitions definitions' : List Definition} {b b' : Batch}
  {stages stages' : List Stage} {rename : String → String}

theorem renamed_root (h : Faithful options definitions b stages)
    (h' : Faithful options definitions' b' stages') (hp : definitions.Perm definitions')
    (hr : (memo options definitions).Renames rename (memo options definitions')) {d : Definition}
    (hd : d ∈ definitions) :
    ∃ version schema m m', d.select options.version = .ok (version, schema) ∧
      b.resources.filter (fun m => m.root.name = d.kind) = [m] ∧
      b'.resources.filter (fun m => m.root.name = d.kind) = [m'] ∧
      m'.descriptor = m.descriptor ∧
      m'.root.fields =
        m.root.fields.map (Field.rename rename (Schema.referenceKeys (rootProperties schema))) := by
  obtain ⟨version, schema, m, fields, hselect, hm, hdescriptor, ht, hf⟩ := h.finished_root hd
  obtain ⟨version', schema', m', others, hselect', hm', hdescriptor', ht', hf'⟩ :=
    h'.finished_root (hp.mem_iff.mp hd)
  obtain ⟨rfl, rfl⟩ := Prod.mk.inj (Except.ok.inj (hselect.symm.trans hselect'))
  have hkeys := rootProperties_nodup ((h.wellFormed d hd).of_select hselect)
  refine ⟨version, schema, m, m', hselect, hm, hm', hdescriptor'.trans hdescriptor.symm, ?_⟩
  rw [hf', hf]
  exact ht.sortFields_eq hr ht' hkeys

theorem renamed_struct (h : Faithful options definitions b stages)
    (h' : Faithful options definitions' b' stages') (hp : definitions.Perm definitions')
    (hr : (memo options definitions).Renames rename (memo options definitions'))
    {type : StructType} (ht : type ∈ b.resources.flatMap (·.structs)) :
    ∃ type' ∈ b'.resources.flatMap (·.structs), type'.name = rename type.name ∧
      ∃ s properties, s.structProperties? = some properties ∧
        Placed.Named options definitions b s type.name ∧
        Placed.Named options definitions' b' s type'.name ∧
        type'.fields =
          type.fields.map (Field.rename rename (Schema.referenceKeys properties)) := by
  obtain ⟨node, hn, properties, hprops, hm⟩ := h.exists_properties_of_struct ht
  have hn' := (nodes_perm hp).mem_iff.mp hn
  have hm' := hr _ _ hm
  obtain ⟨s, hs, hname, fields, hfields, hsorted⟩ := h.finished_struct hn hprops hm
  obtain ⟨s', hs', hname', others, hothers, hsorted'⟩ := h'.finished_struct hn' hprops hm'
  -- names are distinct, so the structure of that name is the one at hand
  obtain rfl : options.finishStruct s = type :=
    List.inj_on_of_nodup_map h.structNames_nodup hs ht hname
  have hkeys := ((wellFormed_nodes h.wellFormed hn).properties hprops).1.nodup
  refine ⟨_, hs', hname', node, properties, hprops, h.placed_struct hn hprops hm, ?_, ?_⟩
  · rw [hname']
    exact h'.placed_struct hn' hprops hm'
  · apply StructType.finish_rename
    rw [hsorted', hsorted]
    exact hfields.sortFields_eq hr hothers hkeys

theorem renamed_enum (h : Faithful options definitions b stages)
    (h' : Faithful options definitions' b' stages') (hp : definitions.Perm definitions')
    (hr : (memo options definitions).Renames rename (memo options definitions'))
    {type : EnumType} (ht : type ∈ b.resources.flatMap (·.enums)) :
    ∃ type' ∈ b'.resources.flatMap (·.enums), type'.name = rename type.name ∧
      Json.SameSet (type.constants.map (·.value)) (type'.constants.map (·.value)) := by
  obtain ⟨node, hn, literals, hl, hm⟩ := h.exists_literals_of_enum ht
  have hn' := (nodes_perm hp).mem_iff.mp hn
  obtain ⟨original, ho, hname, found, hfound, htext, hconstants⟩ := h.finished_enum hn hl hm
  obtain ⟨type', ht', hname', found', hfound', htext', hconstants'⟩ :=
    h'.finished_enum hn' hl (hr _ _ hm)
  obtain rfl : original = type := List.inj_on_of_nodup_map h.enumNames_nodup ho ht hname
  have hset : Json.SameSet found found' :=
    (Signature.literalsText_eq_iff hfound hfound').mp (htext.trans htext'.symm)
  refine ⟨type', ht', hname', ?_⟩
  rw [hconstants, hconstants']
  exact enumConstants_sameSet hset _ _

end Compilation.Faithful

/-- The order of definitions affects nothing but names. They are a batch in every order or in none.
Two batches of the same definitions in different orders are the same up to a renaming of their
nested types. -/
theorem order_affects_only_names {options : Options} {definitions definitions' : List Definition}
    (hp : definitions.Perm definitions') :
    ((∃ b, (compileBatch options definitions).batch = .ok b) ↔
        ∃ b', (compileBatch options definitions').batch = .ok b') ∧
      ((∀ d ∈ definitions, d.WellFormed) →
        Digest.CollisionFree (fragments options definitions) →
        ∀ b b', (compileBatch options definitions).batch = .ok b →
          (compileBatch options definitions').batch = .ok b' →
          ∃ rename, Batch.Renames options definitions definitions' b b' rename) := by
  refine ⟨accepted_perm hp, fun hw hcf b b' hb hb' => ?_⟩
  obtain ⟨stages, ha⟩ := exists_stages hb
  obtain ⟨stages', ha'⟩ := exists_stages hb'
  have h : Faithful options definitions b stages := ⟨ha, hw, hcf⟩
  have h' : Faithful options definitions' b' stages' :=
    ⟨ha', fun d hd => hw d (hp.mem_iff.mpr hd), collisionFree_perm hp hcf⟩
  obtain ⟨rename, hr⟩ := h.exists_renames h' hp
  refine ⟨rename, ?_, ?_, fun d hd => h.renamed_root h' hp hr hd,
    fun type ht => h.renamed_struct h' hp hr ht, fun type ht => h.renamed_enum h' hp hr ht⟩
  · rw [h.structNames_eq, h'.structNames_eq, ← structSignatures_perm hp]
    exact hr.bijOn (fun hx hy => h'.memo_injective hx hy) fun _ hs => h.exists_name_of_struct hs
  · rw [h.enumNames_eq, h'.enumNames_eq, ← enumSignatures_perm hp]
    exact hr.bijOn (fun hx hy => h'.memo_injective hx hy) fun _ hs => h.exists_name_of_enum hs

/-- The shared object of the sample has its name from whichever resource comes first. -/
theorem sampleDefinitions_reversed :
    ∃ b b' rename, (compileBatch ⟨none, true⟩ sampleDefinitions).batch = .ok b ∧
      (compileBatch ⟨none, true⟩ sampleDefinitions.reverse).batch = .ok b' ∧
      Batch.Renames ⟨none, true⟩ sampleDefinitions sampleDefinitions.reverse b b' rename ∧
      rename "WidgetSpec" = "GadgetSpec" := by
  have hp : sampleDefinitions.Perm sampleDefinitions.reverse := (List.reverse_perm _).symm
  have hnames : (compileBatch ⟨none, true⟩ sampleDefinitions).batch.toOption.map
      Batch.structNames = some ["WidgetSpec"] := by decide +kernel
  have hnames' : (compileBatch ⟨none, true⟩ sampleDefinitions.reverse).batch.toOption.map
      Batch.structNames = some ["GadgetSpec"] := by decide +kernel
  obtain ⟨b, hb, hwidget⟩ := exists_batch hnames
  obtain ⟨b', hb', hgadget⟩ := exists_batch hnames'
  obtain ⟨rename, hr⟩ := (order_affects_only_names hp).2 sampleDefinitions_wellFormed
    (sampleDefinitions_collisionFree true) b b' hb hb'
  have himage : rename "WidgetSpec" ∈ b'.structNames := by
    apply hr.structNames.mapsTo
    rw [hwidget]
    exact List.mem_singleton_self "WidgetSpec"
  rw [hgadget] at himage
  exact ⟨b, b', rename, hb, hb', hr, List.mem_singleton.mp himage⟩

end ResourceTypes
