import ResourceTypes.Proofs.Batch.Agreement

/-! # Equal shapes share a name

A schema stands where the batch has a type for it: the field of a root, the contents of a list or a
map, or the field of the structure that the schema above it was given. Wherever two schemas stand,
in one resource or in two, they have one name just when they have one shape.
-/

namespace ResourceTypes

open Lowering Compilation

/-! ## Types without optional layers -/

namespace TypeRef

def strip : TypeRef → TypeRef
  | .optional t => t.strip
  | t => t

def required : TypeRef → TypeRef
  | .optional t => t.required
  | .sequence t => .sequence t.required
  | .mapping t => .mapping t.required
  | t => t

@[simp] theorem orNone_required (t : TypeRef) : t.orNone.required = t.required := by
  cases t <;> rfl

@[simp] theorem relax_required (t : TypeRef) : t.relax.required = t.required := by
  cases t <;> simp [relax, required]

theorem strip_of_required_named {t : TypeRef} {name : String} (h : t.required = .named name) :
    t.strip = .named name := by
  induction t with
  | optional t ih => exact ih h
  | sequence t => cases h
  | mapping t => cases h
  | _ => exact h

theorem strip_of_required_sequence {t item : TypeRef} (h : t.required = .sequence item) :
    ∃ inner, t.strip = .sequence inner ∧ inner.required = item := by
  induction t with
  | optional t ih => exact ih h
  | sequence t => exact ⟨t, rfl, TypeRef.sequence.inj h⟩
  | _ => cases h

theorem strip_of_required_mapping {t value : TypeRef} (h : t.required = .mapping value) :
    ∃ inner, t.strip = .mapping inner ∧ inner.required = value := by
  induction t with
  | optional t ih => exact ih h
  | mapping t => exact ⟨t, rfl, TypeRef.mapping.inj h⟩
  | _ => cases h

end TypeRef

/-! ## Where schemas stand -/

/-- The types that a batch has where schemas stand. -/
inductive Placed (options : Options) (definitions : List Definition) (b : Batch) :
    Schema → TypeRef → Prop
  | root {i : Nat} {d : Definition} {m : TypeModel} {version : Version} {schema : Schema}
      {property : String × Schema} {field : Field} :
      definitions[i]? = some d → b.resources[i]? = some m →
      d.select options.version = .ok (version, schema) → property ∈ rootProperties schema →
      field ∈ m.root.fields → field.jsonKey = property.1 →
      Placed options definitions b property.2 field.type
  | content {s c : Schema} {container : TypeRef → TypeRef} {type inner : TypeRef} :
      Placed options definitions b s type → s.content? = some (container, c) →
      type.strip = container inner → Placed options definitions b c inner
  | property {s : Schema} {properties : List (String × Schema)} {type : TypeRef}
      {struct : StructType} {property : String × Schema} {field : Field} :
      Placed options definitions b s type → s.structProperties? = some properties →
      struct ∈ b.resources.flatMap (·.structs) → type.strip = .named struct.name →
      property ∈ properties → field ∈ struct.fields → field.jsonKey = property.1 →
      Placed options definitions b property.2 field.type

/-- Whether a schema stands where the batch has a type of some name. -/
def Placed.Named (options : Options) (definitions : List Definition) (b : Batch) (s : Schema)
    (name : String) : Prop :=
  ∃ type, Placed options definitions b s type ∧ type.strip = .named name

namespace Lowering

theorem rootProperties_nodup {schema : Schema} (h : schema.WellFormed) :
    ((rootProperties schema).map (·.1)).Nodup := by
  obtain ⟨description, shape⟩ := schema
  cases shape with
  | object properties additional preserveUnknown =>
      exact h.1.nodup.sublist (List.filter_sublist.map _)
  | _ => exact .nil

end Lowering

namespace Compilation

/-- Whether lowering comes to a schema, and a type is its translation but for optional layers. -/
def Translated (options : Options) (definitions : List Definition) (s : Schema)
    (type : TypeRef) : Prop :=
  s.nodes ⊆ nodes options definitions ∧ ∃ key lowered,
    translate (memo options definitions) key s = some lowered ∧
      lowered.type.required = type.required

namespace Translated

variable {options : Options} {definitions : List Definition} {s : Schema} {type : TypeRef}

theorem mem_nodes (h : Translated options definitions s type) : s ∈ nodes options definitions :=
  h.1 s.self_mem_nodes

theorem struct (h : Translated options definitions s type) {properties : List (String × Schema)}
    (hp : s.structProperties? = some properties) :
    ∃ name, memo options definitions (.ofProperties properties) = some name ∧
      type.strip = .named name := by
  obtain ⟨-, key, lowered, hl, hrequired⟩ := h
  rw [translate_of_structProperties hp] at hl
  obtain ⟨name, hm, rfl⟩ := Option.map_eq_some_iff.mp hl
  exact ⟨name, hm, TypeRef.strip_of_required_named hrequired.symm⟩

theorem enum (h : Translated options definitions s type) {literals : List Json}
    (hl : s.enumLiterals? = some literals) :
    ∃ name, memo options definitions (.ofLiterals literals) = some name ∧
      type.strip = .named name := by
  obtain ⟨-, key, lowered, ht, hrequired⟩ := h
  rw [translate_of_enumLiterals hl] at ht
  obtain ⟨name, hm, rfl⟩ := Option.map_eq_some_iff.mp ht
  exact ⟨name, hm, TypeRef.strip_of_required_named hrequired.symm⟩

theorem content (h : Translated options definitions s type) {container : TypeRef → TypeRef}
    {c : Schema} (hc : s.content? = some (container, c)) :
    ∃ inner, type.strip = container inner ∧ Translated options definitions c inner := by
  obtain ⟨hsub, key, lowered, hl, hrequired⟩ := h
  rw [translate_of_content hc] at hl
  obtain ⟨content, hcontent, rfl⟩ := Option.map_eq_some_iff.mp hl
  have hstrip : ∃ inner, type.strip = container inner ∧
      inner.required = content.type.required := by
    rcases Schema.shape_of_content hc with ⟨_, _, rfl⟩ | ⟨_, _, _, _, _, _, rfl⟩
    · exact TypeRef.strip_of_required_sequence hrequired.symm
    · exact TypeRef.strip_of_required_mapping hrequired.symm
  obtain ⟨inner, hinner, hreq⟩ := hstrip
  rw [Schema.nodes_of_content hc] at hsub
  exact ⟨inner, hinner, List.subset_of_cons_subset hsub, key, content, hcontent, hreq.symm⟩

end Translated

namespace Faithful

variable {options : Options} {definitions : List Definition} {b : Batch} {stages : List Stage}

/-- The structure that a batch has for properties, as it stands in the batch. -/
theorem finished_struct (h : Faithful options definitions b stages) {node : Schema}
    (hn : node ∈ nodes options definitions) {properties : List (String × Schema)}
    (hp : node.structProperties? = some properties) {name : String}
    (hm : memo options definitions (.ofProperties properties) = some name) :
    ∃ s, options.finishStruct s ∈ b.resources.flatMap (·.structs) ∧
      (options.finishStruct s).name = name ∧
      ∃ fields, Translates (memo options definitions) properties fields ∧
        s.fields = sortFields fields := by
  obtain ⟨g, hg, s, hs, rfl, fields, ht, hf⟩ := h.exists_struct hn hp hm
  refine ⟨s, ?_, StructType.finish_name options s, fields, ht, hf⟩
  rw [h.resources]
  refine List.mem_flatMap.mpr ⟨_, List.mem_map_of_mem hg, ?_⟩
  rw [TypeModel.finish_structs]
  exact List.mem_map_of_mem hs

/-- Names are distinct, so a structure with the name of properties is the one made of them. -/
theorem original_struct (h : Faithful options definitions b stages) {node : Schema}
    (hn : node ∈ nodes options definitions) {properties : List (String × Schema)}
    (hp : node.structProperties? = some properties) {struct : StructType}
    (hs : struct ∈ b.resources.flatMap (·.structs))
    (hm : memo options definitions (.ofProperties properties) = some struct.name) :
    ∃ original, options.finishStruct original = struct ∧
      ∃ fields, Translates (memo options definitions) properties fields ∧
        original.fields = sortFields fields := by
  obtain ⟨original, horiginal, hname, hfields⟩ := h.finished_struct hn hp hm
  exact ⟨original, List.inj_on_of_nodup_map h.structNames_nodup horiginal hs hname, hfields⟩

theorem translated_root (h : Faithful options definitions b stages) {i : Nat} {d : Definition}
    {m : TypeModel} (hd : definitions[i]? = some d) (hm : b.resources[i]? = some m)
    {version : Version} {schema : Schema} (hs : d.select options.version = .ok (version, schema))
    {property : String × Schema} (hp : property ∈ rootProperties schema) {field : Field}
    (hf : field ∈ m.root.fields) (hk : field.jsonKey = property.1) :
    Translated options definitions property.2 field.type := by
  obtain ⟨g, hg, version', hselect, -⟩ := h.exists_stage_of_definition hd
  rw [hs] at hselect
  cases hselect
  rw [h.resource_of_stage hg] at hm
  cases hm
  have hgmem := List.mem_of_getElem? hg
  obtain ⟨fields, ht, hroot⟩ := h.root_translates hgmem
  rw [TypeModel.finish_root, hroot] at hf
  have hw := (h.wellFormed d (List.mem_of_getElem? hd)).of_select hs
  obtain ⟨lowered, hl, htype⟩ := ht.field_of_key (rootProperties_nodup hw) hp hf hk
  refine ⟨?_, property.1, lowered, hl, by rw [htype]⟩
  intro node hn
  exact h.rootNodes_subset hgmem (Schema.mem_propertyNodes.mpr ⟨property, hp, hn⟩)

theorem translated_property (h : Faithful options definitions b stages) {s : Schema}
    {type : TypeRef} (hs : Translated options definitions s type)
    {properties : List (String × Schema)} (hp : s.structProperties? = some properties)
    {struct : StructType} (hstruct : struct ∈ b.resources.flatMap (·.structs))
    (hstrip : type.strip = .named struct.name) {property : String × Schema}
    (hm : property ∈ properties) {field : Field} (hf : field ∈ struct.fields)
    (hk : field.jsonKey = property.1) :
    Translated options definitions property.2 field.type := by
  obtain ⟨name, hmemo, hnamed⟩ := hs.struct hp
  obtain rfl := TypeRef.named.inj (hnamed.symm.trans hstrip)
  obtain ⟨original, hsame, fields, ht, hfields⟩ :=
    h.original_struct hs.mem_nodes hp hstruct hmemo
  obtain ⟨f, hfm, hkey, -, htype⟩ := StructType.exists_field_of_finish (hsame ▸ hf)
  have hw := (wellFormed_nodes h.wellFormed hs.mem_nodes).properties hp
  obtain ⟨lowered, hl, hft⟩ :=
    ht.field_of_key hw.1.nodup hm (hfields ▸ hfm) (hkey.symm.trans hk)
  refine ⟨?_, property.1, lowered, hl, ?_⟩
  · intro node hn
    apply hs.1
    rw [Schema.nodes_of_structProperties hp]
    exact List.mem_cons_of_mem _ (Schema.mem_propertyNodes.mpr ⟨property, hm, hn⟩)
  · rcases htype with ht | ht <;> simp [ht, hft]

/-- Whatever stands in a batch has its translation there. -/
theorem translated_of_placed (h : Faithful options definitions b stages) {s : Schema}
    {type : TypeRef} (hs : Placed options definitions b s type) :
    Translated options definitions s type := by
  induction hs with
  | root hd hm hselect hp hf hk => exact h.translated_root hd hm hselect hp hf hk
  | content _ hc hstrip ih =>
      obtain ⟨inner, hinner, ht⟩ := ih.content hc
      rwa [Schema.container_injective hc (hstrip.symm.trans hinner)]
  | property _ hp hstruct hstrip hm hf hk ih =>
      exact h.translated_property ih hp hstruct hstrip hm hf hk

/-- What lies below a schema that stands in a batch stands in it as well. -/
theorem placed_below (h : Faithful options definitions b stages) {s : Schema} {type : TypeRef}
    (hs : Placed options definitions b s type) {node : Schema} (hn : node ∈ s.nodes) :
    ∃ found, Placed options definitions b node found := by
  induction s using Schema.lowering_induction generalizing type with
  | leaf s hp hc =>
      rw [Schema.nodes_of_leaf hp hc, List.mem_singleton] at hn
      exact ⟨type, hn ▸ hs⟩
  | content s container c hc ih =>
      rw [Schema.nodes_of_content hc] at hn
      rcases List.mem_cons.mp hn with rfl | hn
      · exact ⟨type, hs⟩
      · obtain ⟨inner, hinner, -⟩ := (h.translated_of_placed hs).content hc
        exact ih (.content hs hc hinner) hn
  | struct s properties hp ih =>
      rw [Schema.nodes_of_structProperties hp] at hn
      rcases List.mem_cons.mp hn with rfl | hn
      · exact ⟨type, hs⟩
      · have ht := h.translated_of_placed hs
        obtain ⟨name, hm, hstrip⟩ := ht.struct hp
        obtain ⟨original, hmem, rfl, fields, hfields, hsorted⟩ :=
          h.finished_struct ht.mem_nodes hp hm
        obtain ⟨property, hproperty, hbelow⟩ := Schema.mem_propertyNodes.mp hn
        obtain ⟨field, hfield, hkey⟩ := hfields.exists_field_of_key hproperty
        obtain ⟨f, hf, hfkey⟩ := StructType.exists_finished_field options (hsorted ▸ hfield)
        exact ih property hproperty
          (.property hs hp hmem hstrip hproperty hf (hfkey.trans hkey)) hbelow

/-- Whatever lowering comes to stands somewhere in the batch. -/
theorem exists_placed (h : Faithful options definitions b stages) {node : Schema}
    (hn : node ∈ nodes options definitions) : ∃ type, Placed options definitions b node type := by
  obtain ⟨d, hd, hn⟩ := List.mem_flatMap.mp hn
  obtain ⟨i, hi⟩ := List.mem_iff_getElem?.mp hd
  obtain ⟨g, hg, version, hselect, -⟩ := h.exists_stage_of_definition hi
  rw [hselect] at hn
  obtain ⟨property, hproperty, hbelow⟩ := Schema.mem_propertyNodes.mp hn
  obtain ⟨fields, ht, hroot⟩ := h.root_translates (List.mem_of_getElem? hg)
  obtain ⟨field, hf, hkey⟩ := ht.exists_field_of_key hproperty
  have hf' : field ∈ (options.finish g.model).root.fields := by
    rw [TypeModel.finish_root, hroot]
    exact hf
  exact h.placed_below (.root hi (h.resource_of_stage hg) hselect hproperty hf' hkey) hbelow

/-! ## Names and shapes -/

theorem memo_of_struct (h : Faithful options definitions b stages) {s : Schema} {name : String}
    (hs : Placed.Named options definitions b s name) {properties : List (String × Schema)}
    (hp : s.structProperties? = some properties) : s ∈ nodes options definitions ∧
      memo options definitions (.ofProperties properties) = some name := by
  obtain ⟨type, hplaced, hstrip⟩ := hs
  have ht := h.translated_of_placed hplaced
  obtain ⟨found, hm, hnamed⟩ := ht.struct hp
  exact ⟨ht.mem_nodes, TypeRef.named.inj (hnamed.symm.trans hstrip) ▸ hm⟩

theorem memo_of_enum (h : Faithful options definitions b stages) {s : Schema} {name : String}
    (hs : Placed.Named options definitions b s name) {literals : List Json}
    (hl : s.enumLiterals? = some literals) : s ∈ nodes options definitions ∧
      memo options definitions (.ofLiterals literals) = some name := by
  obtain ⟨type, hplaced, hstrip⟩ := hs
  have ht := h.translated_of_placed hplaced
  obtain ⟨found, hm, hnamed⟩ := ht.enum hl
  exact ⟨ht.mem_nodes, TypeRef.named.inj (hnamed.symm.trans hstrip) ▸ hm⟩

/-- A structure or an enumeration has a name wherever it stands. -/
theorem name_of_placed (h : Faithful options definitions b stages) {s : Schema} {type : TypeRef}
    (hs : Placed options definitions b s type) (hf : s.fragment? ≠ none) :
    ∃ name, type.strip = .named name := by
  have ht := h.translated_of_placed hs
  cases hp : s.structProperties? with
  | some properties =>
      obtain ⟨name, -, hstrip⟩ := ht.struct hp
      exact ⟨name, hstrip⟩
  | none =>
      cases he : s.enumLiterals? with
      | some literals =>
          obtain ⟨name, -, hstrip⟩ := ht.enum he
          exact ⟨name, hstrip⟩
      | none => simp [Schema.fragment?, hp, he] at hf

/-- Structures have one name just when they have the same properties. -/
theorem struct_name_eq_iff (h : Faithful options definitions b stages) {s t : Schema}
    {ps qs : List (String × Schema)} (hps : s.structProperties? = some ps)
    (hqs : t.structProperties? = some qs) {m n : String}
    (hm : Placed.Named options definitions b s m) (hn : Placed.Named options definitions b t n) :
    m = n ↔ ps = qs := by
  obtain ⟨hs, hms⟩ := h.memo_of_struct hm hps
  obtain ⟨ht, hnt⟩ := h.memo_of_struct hn hqs
  constructor
  · rintro rfl
    have htext := h.fragment_eq_of_name hs ht (Schema.fragment_of_structProperties hps)
      (Schema.fragment_of_structProperties hqs) hms hnt
    exact (Signature.propertiesText_inj ((wellFormed_nodes h.wellFormed hs).properties hps).1
      ((wellFormed_nodes h.wellFormed ht).properties hqs).1).mp htext
  · rintro rfl
    exact Option.some.inj (hms.symm.trans hnt)

/-- Enumerations have one name just when they have the same set of literals. -/
theorem enum_name_eq_iff (h : Faithful options definitions b stages) {s t : Schema}
    {xs ys : List Json} (hxs : s.enumLiterals? = some xs) (hys : t.enumLiterals? = some ys)
    {m n : String} (hm : Placed.Named options definitions b s m)
    (hn : Placed.Named options definitions b t n) : m = n ↔ Json.SameSet xs ys := by
  obtain ⟨hs, hms⟩ := h.memo_of_enum hm hxs
  obtain ⟨ht, hnt⟩ := h.memo_of_enum hn hys
  rw [← Signature.literalsText_eq_iff ((wellFormed_nodes h.wellFormed hs).literals hxs)
    ((wellFormed_nodes h.wellFormed ht).literals hys)]
  constructor
  · rintro rfl
    exact h.fragment_eq_of_name hs ht (Schema.fragment_of_enumLiterals hxs)
      (Schema.fragment_of_enumLiterals hys) hms hnt
  · intro htext
    have hsignature : Signature.ofLiterals xs = Signature.ofLiterals ys :=
      congrArg Digest.ofChars htext
    exact Option.some.inj (hms.symm.trans (hsignature ▸ hnt))

theorem struct_name_ne_enum_name (h : Faithful options definitions b stages) {s t : Schema}
    {ps : List (String × Schema)} {ys : List Json} (hps : s.structProperties? = some ps)
    (hys : t.enumLiterals? = some ys) {m n : String}
    (hm : Placed.Named options definitions b s m)
    (hn : Placed.Named options definitions b t n) : m ≠ n := by
  obtain ⟨hs, hms⟩ := h.memo_of_struct hm hps
  obtain ⟨ht, hnt⟩ := h.memo_of_enum hn hys
  rintro rfl
  exact Signature.propertiesText_ne_literalsText ps ys
    (h.fragment_eq_of_name hs ht (Schema.fragment_of_structProperties hps)
      (Schema.fragment_of_enumLiterals hys) hms hnt)

end Faithful

end Compilation

/-- Sharing is exact across a batch. Everything that lowering comes to stands in the batch, and
structures and enumerations have names wherever they stand. Two structures have one name just when
their properties are the same, two enumerations just when their literals are the same set up to the
order of keys, and a structure never has the name of an enumeration. -/
theorem sharing_exact {options : Options} {definitions : List Definition} {b : Batch}
    (hw : ∀ d ∈ definitions, d.WellFormed)
    (hcf : Digest.CollisionFree (fragments options definitions))
    (h : (compileBatch options definitions).batch = .ok b) :
    (∀ node ∈ nodes options definitions, ∃ type, Placed options definitions b node type) ∧
    (∀ s type, Placed options definitions b s type → s.fragment? ≠ none →
      ∃ name, type.strip = .named name) ∧
    ∀ s t m n, Placed.Named options definitions b s m → Placed.Named options definitions b t n →
      (∀ ps qs, s.structProperties? = some ps → t.structProperties? = some qs →
        (m = n ↔ ps = qs)) ∧
      (∀ xs ys, s.enumLiterals? = some xs → t.enumLiterals? = some ys →
        (m = n ↔ Json.SameSet xs ys)) ∧
      ∀ ps ys, s.structProperties? = some ps → t.enumLiterals? = some ys → m ≠ n := by
  obtain ⟨stages, ha⟩ := exists_stages h
  have hf : Faithful options definitions b stages := ⟨ha, hw, hcf⟩
  refine ⟨fun node hn => hf.exists_placed hn, fun s type hs => hf.name_of_placed hs, ?_⟩
  intro s t m n hm hn
  refine ⟨?_, ?_, ?_⟩
  · intro ps qs hps hqs
    exact hf.struct_name_eq_iff hps hqs hm hn
  · intro xs ys hxs hys
    exact hf.enum_name_eq_iff hxs hys hm hn
  · intro ps ys hps hys
    exact hf.struct_name_ne_enum_name hps hys hm hn

theorem sampleDefinitions_sharing_exact :
    (∀ d ∈ sampleDefinitions, d.WellFormed) ∧
      Digest.CollisionFree (fragments ⟨none, true⟩ sampleDefinitions) ∧
      ∃ b, (compileBatch ⟨none, true⟩ sampleDefinitions).batch = .ok b ∧ ∃ m n,
        Placed.Named ⟨none, true⟩ sampleDefinitions b sampleObject m ∧
        Placed.Named ⟨none, true⟩ sampleDefinitions b sampleEnum n ∧ m ≠ n := by
  have hw := sampleDefinitions_wellFormed
  have hcf := sampleDefinitions_collisionFree true
  obtain ⟨b, hb⟩ := sampleDefinitions_accepted true
  obtain ⟨hplaced, hnamed, hexact⟩ := sharing_exact hw hcf hb
  have hnodes : nodes ⟨none, true⟩ sampleDefinitions =
      [sampleObject, sampleEnum, .mk none (.array (some sampleObject)), sampleObject, sampleEnum,
        .mk none .intOrString] := rfl
  obtain ⟨s, hs⟩ := hplaced sampleObject (by rw [hnodes]; simp)
  obtain ⟨t, ht⟩ := hplaced sampleEnum (by rw [hnodes]; simp)
  obtain ⟨m, hm⟩ := hnamed _ _ hs (Option.some_ne_none _)
  obtain ⟨n, hn⟩ := hnamed _ _ ht (Option.some_ne_none _)
  have hsm : Placed.Named ⟨none, true⟩ sampleDefinitions b sampleObject m := ⟨s, hs, hm⟩
  have htn : Placed.Named ⟨none, true⟩ sampleDefinitions b sampleEnum n := ⟨t, ht, hn⟩
  exact ⟨hw, hcf, b, hb, m, n, hsm, htn, (hexact _ _ m n hsm htn).2.2 _ _ rfl rfl⟩

end ResourceTypes
