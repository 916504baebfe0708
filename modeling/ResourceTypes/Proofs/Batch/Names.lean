import Mathlib.Data.List.Flatten
import ResourceTypes.Model.Json
import ResourceTypes.Proofs.Batch.Stages

/-! # The names of a batch

Kinds and list kinds are distinct because a batch is accepted, and they are taken before any type is
named, together with what generated modules import. Every nested type takes a name that was free at
that time and stays taken afterwards.
-/

namespace ResourceTypes

open Lowering Compilation

/-! ## Finished models -/

def Options.finishStruct (options : Options) (s : StructType) : StructType :=
  if options.optional then s.relax else s

namespace StructType

theorem finish_name (options : Options) (s : StructType) :
    (options.finishStruct s).name = s.name := by
  unfold Options.finishStruct
  split <;> rfl

theorem exists_field_of_finish {options : Options} {s : StructType} {field : Field}
    (h : field ∈ (options.finishStruct s).fields) :
    ∃ f ∈ s.fields, field.jsonKey = f.jsonKey ∧ field.enumRef = f.enumRef ∧
      (field.type = f.type ∨ field.type = f.type.relax) := by
  unfold Options.finishStruct at h
  split at h
  next =>
    obtain ⟨f, hf, rfl⟩ := List.mem_map.mp h
    exact ⟨f, hf, rfl, rfl, .inr rfl⟩
  next => exact ⟨field, h, rfl, rfl, .inl rfl⟩

theorem exists_finished_field (options : Options) {s : StructType} {field : Field}
    (h : field ∈ s.fields) :
    ∃ f ∈ (options.finishStruct s).fields, f.jsonKey = field.jsonKey := by
  unfold Options.finishStruct
  split
  next => exact ⟨_, List.mem_map_of_mem h, rfl⟩
  next => exact ⟨field, h, rfl⟩

end StructType

def TypeModel.nestedNames (m : TypeModel) : List String :=
  m.structs.map (·.name) ++ m.enums.map (·.name)

namespace TypeModel

theorem finish_structs (options : Options) (m : TypeModel) :
    (options.finish m).structs = m.structs.map options.finishStruct := by
  unfold Options.finish Options.finishStruct
  split
  · rfl
  · exact (List.map_id _).symm

theorem finish_enums (options : Options) (m : TypeModel) : (options.finish m).enums = m.enums := by
  unfold Options.finish
  split <;> rfl

theorem finish_refs (options : Options) (m : TypeModel) : (options.finish m).refs = m.refs := by
  unfold Options.finish
  split <;> rfl

theorem finish_nestedNames (options : Options) (m : TypeModel) :
    (options.finish m).nestedNames = m.nestedNames := by
  unfold nestedNames
  rw [finish_structs, finish_enums, List.map_map]
  congr 1
  exact List.map_congr_left fun s _ => StructType.finish_name options s

theorem finish_root (options : Options) (m : TypeModel) : (options.finish m).root = m.root := by
  unfold Options.finish
  split <;> rfl

theorem finish_descriptor (options : Options) (m : TypeModel) :
    (options.finish m).descriptor = m.descriptor := by
  unfold Options.finish
  split <;> rfl

end TypeModel

namespace Lowering

theorem Made.names_perm (made : List Made) :
    ((made.filterMap struct?).map (·.name) ++ (made.filterMap enum?).map (·.name)).Perm
      (made.map name) := by
  induction made with
  | nil => simp
  | cons m made ih =>
      cases m with
      | struct properties type =>
          simp only [List.filterMap_cons, struct?, enum?, List.map_cons, name]
          exact ih.cons _
      | enum literals type =>
          simp only [List.filterMap_cons, struct?, enum?, List.map_cons, name]
          exact List.perm_middle.trans (ih.cons _)

theorem Stage.Of.nestedNames_perm {r : Naming.Registry} {g : Stage} (h : g.Of r) :
    g.model.nestedNames.Perm (g.made.map Made.name) :=
  ((h.structs.map _).append (h.enums.map _)).trans (Made.names_perm g.made)

end Lowering

namespace Compilation

variable {options : Options} {definitions : List Definition} {b : Batch} {stages : List Stage}

namespace Accepted

theorem exists_stage_of_resource (h : Accepted options definitions b stages) {i : Nat}
    {m : TypeModel} (hi : b.resources[i]? = some m) :
    ∃ g, stages[i]? = some g ∧ m = options.finish g.model := by
  rw [h.resources, List.getElem?_map] at hi
  obtain ⟨g, hg, rfl⟩ := Option.map_eq_some_iff.mp hi
  exact ⟨g, hg, rfl⟩

theorem resource_of_stage (h : Accepted options definitions b stages) {i : Nat} {g : Stage}
    (hi : stages[i]? = some g) : b.resources[i]? = some (options.finish g.model) := by
  rw [h.resources, List.getElem?_map, hi, Option.map_some]

theorem exists_stage_of_definition (h : Accepted options definitions b stages) {i : Nat}
    {d : Definition} (hd : definitions[i]? = some d) :
    ∃ g, stages[i]? = some g ∧ Selects options d g := by
  obtain ⟨hi, rfl⟩ := List.getElem?_eq_some_iff.mp hd
  have hj : i < stages.length := h.selects.length_eq ▸ hi
  exact ⟨stages[i], List.getElem?_eq_getElem hj, h.selects.get hi hj⟩

/-- The identity of a resource is that of its definition. -/
theorem map_descriptor (h : Accepted options definitions b stages) {f : Descriptor → String}
    {key : Definition → String} (hf : ∀ d version, f (d.descriptor version) = key d) :
    stages.map (fun g => f g.descriptor) = definitions.map key := by
  have hs := h.selects
  clear h
  induction hs with
  | nil => rfl
  | cons hsel _ ih =>
      obtain ⟨version, -, hd⟩ := hsel
      rw [List.map_cons, List.map_cons, ih, hd, hf]

theorem rootNames_eq (h : Accepted options definitions b stages) :
    b.resources.map (·.root.name) = definitions.map (·.kind) := by
  rw [h.resources, List.map_map, ← h.map_descriptor (f := (·.kind)) fun _ _ => rfl]
  apply List.map_congr_left
  intro g hg
  obtain ⟨r, ho⟩ := h.chain.of_mem hg
  rw [Function.comp_apply, TypeModel.finish_root, ho.rootName]

theorem listNames_eq (h : Accepted options definitions b stages) :
    b.resources.map (·.descriptor.listKind) = definitions.map (·.listKind) := by
  rw [h.resources, List.map_map, ← h.map_descriptor (f := (·.listKind)) fun _ _ => rfl]
  apply List.map_congr_left
  intro g hg
  obtain ⟨r, ho⟩ := h.chain.of_mem hg
  rw [Function.comp_apply, TypeModel.finish_descriptor, ho.descriptor]

theorem nestedNames_perm (h : Accepted options definitions b stages) :
    (b.resources.flatMap TypeModel.nestedNames).Perm
      (stages.flatMap fun g => g.made.map Made.name) := by
  rw [h.resources, List.flatMap_map]
  apply List.Perm.flatMap_left
  intro g hg
  obtain ⟨r, ho⟩ := h.chain.of_mem hg
  rw [TypeModel.finish_nestedNames]
  exact ho.nestedNames_perm

/-- No nested type has a name that was taken at the start or that another one has. -/
theorem nestedNames_fresh (h : Accepted options definitions b stages) :
    (b.resources.flatMap TypeModel.nestedNames).Nodup ∧
      ∀ name ∈ b.resources.flatMap TypeModel.nestedNames,
        name ∉ (startRegistry definitions).reserved := by
  have hn := h.chain.reserved_nodup (startRegistry_nodup definitions)
  rw [h.chain.reserved_perm.nodup_iff, List.nodup_append] at hn
  obtain ⟨hnested, -, hdisjoint⟩ := hn
  refine ⟨h.nestedNames_perm.nodup_iff.mpr hnested, ?_⟩
  intro name hname hstart
  exact hdisjoint name (h.nestedNames_perm.mem_iff.mp hname) name hstart rfl

theorem structNames_nodup (h : Accepted options definitions b stages) :
    ((b.resources.flatMap (·.structs)).map (·.name)).Nodup := by
  refine h.nestedNames_fresh.1.sublist ?_
  rw [List.map_flatMap]
  exact .flatMap_right _ fun m _ => List.sublist_append_left _ _

theorem enumNames_nodup (h : Accepted options definitions b stages) :
    ((b.resources.flatMap (·.enums)).map (·.name)).Nodup := by
  refine h.nestedNames_fresh.1.sublist ?_
  rw [List.map_flatMap]
  exact .flatMap_right _ fun m _ => List.sublist_append_right _ _

end Accepted

end Compilation

/-! ## The JSON form -/

/-- The names of nested types are the keys of the JSON form, and every entry repeats its key as its
name. -/
theorem TypeModel.toJson_nested (m : TypeModel) :
    ∃ structs enums, m.toJson.get? "structs" = some (.obj structs) ∧
      m.toJson.get? "enums" = some (.obj enums) ∧
      structs.map (·.1) ++ enums.map (·.1) = m.nestedNames ∧
      ∀ entry ∈ structs ++ enums, entry.2.get? "name" = some (.str entry.1) := by
  refine ⟨m.structs.map fun s => (s.name, s.toJson), m.enums.map fun e => (e.name, e.toJson),
    rfl, rfl, ?_, ?_⟩
  · rw [List.map_map, List.map_map]
    rfl
  · intro entry hentry
    rcases List.mem_append.mp hentry with hm | hm
    · obtain ⟨s, -, rfl⟩ := List.mem_map.mp hm
      rfl
    · obtain ⟨e, -, rfl⟩ := List.mem_map.mp hm
      rfl

/-- The root of a resource is named after its kind. -/
theorem root_name_eq {options : Options} {definitions : List Definition} {b : Batch}
    {stages : List Stage} (h : Accepted options definitions b stages) {m : TypeModel}
    (hm : m ∈ b.resources) : m.root.name = m.descriptor.kind := by
  rw [h.resources] at hm
  obtain ⟨g, hg, rfl⟩ := List.mem_map.mp hm
  obtain ⟨r, ho⟩ := h.chain.of_mem hg
  rw [TypeModel.finish_root, TypeModel.finish_descriptor, ho.rootName, ho.descriptor]

/-! ## Distinct names -/

/-- The external types, and what generated modules use besides them. -/
theorem importedNames_eq : importedNames =
    ["Time", "ByteString", "Condition", "ObjectMeta", "ListMeta", "IntOrString", "RawExtension",
      "JSON", "BTreeMap", "Serialize", "Deserialize", "String", "Vec", "Option"] :=
  rfl

/-- All types of a batch have names of their own: roots, lists, and the structures and enumerations
of all resources. A nested type is stored under its name and never has a name that is imported. -/
theorem batch_names_distinct {options : Options} {definitions : List Definition} {b : Batch}
    (h : (compileBatch options definitions).batch = .ok b) :
    (b.resources.map (·.root.name) ++ b.resources.map (·.descriptor.listKind) ++
        b.resources.flatMap TypeModel.nestedNames).Nodup ∧
      ∀ m ∈ b.resources, m.root.name = m.descriptor.kind ∧
        (∀ name ∈ m.nestedNames, name ∉ importedNames) ∧
        ∃ structs enums, m.toJson.get? "structs" = some (.obj structs) ∧
          m.toJson.get? "enums" = some (.obj enums) ∧
          structs.map (·.1) ++ enums.map (·.1) = m.nestedNames ∧
          ∀ entry ∈ structs ++ enums, entry.2.get? "name" = some (.str entry.1) := by
  obtain ⟨stages, ha⟩ := exists_stages h
  obtain ⟨hnested, hfresh⟩ := ha.nestedNames_fresh
  constructor
  · rw [ha.rootNames_eq, ha.listNames_eq, List.nodup_append]
    refine ⟨ha.typeNames_nodup, hnested, ?_⟩
    rintro name hname _ hm rfl
    exact hfresh name hm (mem_startRegistry.mpr (.inr hname))
  · intro m hm
    refine ⟨root_name_eq ha hm, ?_, m.toJson_nested⟩
    intro name hname himported
    exact hfresh name (List.mem_flatMap.mpr ⟨m, hm, hname⟩)
      (mem_startRegistry.mpr (.inl himported))

theorem sampleDefinitions_names_distinct :
    ∃ b, (compileBatch ⟨none, true⟩ sampleDefinitions).batch = .ok b ∧
      (b.resources.map (·.root.name) ++ b.resources.map (·.descriptor.listKind) ++
        b.resources.flatMap TypeModel.nestedNames).Nodup := by
  obtain ⟨b, hb⟩ := sampleDefinitions_accepted true
  exact ⟨b, hb, (batch_names_distinct hb).1⟩

end ResourceTypes
