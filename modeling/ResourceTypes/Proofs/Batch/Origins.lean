import ResourceTypes.Proofs.Batch.Shapes
import ResourceTypes.Proofs.Batch.Names
import ResourceTypes.Proofs.Lowering.Steps

/-! # Where the parts of a batch come from

The model of a resource is what a sequence of lowering steps has left, put in order. So every nested
name was free at a site below some kind, every enumeration is that of a schema, and every target was
asked for by a reference.
-/

namespace ResourceTypes

namespace Lowering

/-- The keys of the properties that the lowering of a resource comes to. -/
def lowerKeys (schema : Schema) : List String :=
  (rootProperties schema).map (·.1) ++ (rootNodes schema).flatMap Schema.fieldKeys

theorem covers_lowerKeys (schema : Schema) : Covers (lowerKeys schema) (rootNodes schema) := by
  intro node hn key hk
  exact List.mem_append_right _ (List.mem_flatMap.mpr ⟨node, hn, hk⟩)

/-- The sites of the root's own properties. -/
theorem Site.below_root {kind key : String} {keys : List String} (hk : key ∈ keys) :
    Site.Below kind keys ⟨kind, [kind], key, Naming.camelCase key, true⟩ where
  kind_eq := rfl
  path_mem := fun _ hm => .inl (List.mem_singleton.mp hm)
  key_mem := hk
  fieldName_eq := rfl

/-- A model is made of what some steps have left. -/
theorem lower_steps (r : Naming.Registry) (schema : Schema) (d : Descriptor) :
    ∃ s, Steps d.kind (lowerKeys schema) (rootNodes schema)
        (.start (r.reserveAll (ownNames d))) s ∧
      (lower r schema d).2 = s.registry ∧ (lower r schema d).1.enums.Perm s.enums ∧
      (lower r schema d).1.refs = sortedNames s.refs :=
  ⟨_, lowerFields_steps (covers_lowerKeys schema) d.kind [d.kind] true Site.below_root
      (rootProperties schema) (List.subset_append_left _ _) (List.Subset.refl _) _,
    rfl, List.mergeSort_perm _ _, rfl⟩

theorem mem_imports {types : List TypeRef} {e : External} :
    e ∈ imports types ↔ e = .objectMeta ∨ e = .listMeta ∨ ∃ t ∈ types, e ∈ t.externals := by
  have hall : e ∈ External.all := by
    cases e <;> decide
  simp [imports, hall]

/-- The imports of a model are both sorts of metadata and what its types hold at any depth. -/
theorem mem_lower_imports {r : Naming.Registry} {schema : Schema} {d : Descriptor} {e : External} :
    e ∈ (lower r schema d).1.imports ↔
      e = .objectMeta ∨ e = .listMeta ∨ ∃ t ∈ (lower r schema d).1.types, e ∈ t.externals := by
  rw [lower, mem_imports]
  -- The imports are gathered before the types are sorted.
  simp only [TypeModel.types, TypeModel.fields, List.map_flatMap]
  simp

variable {r : Naming.Registry} {g : Stage}

theorem Stage.Of.steps (h : g.Of r) :
    ∃ s, Steps g.descriptor.kind (lowerKeys g.schema) (rootNodes g.schema)
        (.start (r.reserveAll (ownNames g.descriptor))) s ∧
      g.state.registry = s.registry ∧ g.model.enums.Perm s.enums ∧
      g.model.refs = sortedNames s.refs := by
  have hsteps := lower_steps r g.schema g.descriptor
  rwa [h.lowered] at hsteps

/-- A name that is known after a stage was known before, or it was free at a site of the stage. -/
theorem Stage.Of.named (h : g.Of r) {entry : Signature × String}
    (he : entry ∈ g.state.registry.names) :
    entry ∈ r.names ∨ NamedBelow g.descriptor.kind (lowerKeys g.schema) entry.2 := by
  obtain ⟨s, hsteps, hregistry, -, -⟩ := h.steps
  rw [hregistry] at he
  have hadds := hsteps.adds (f := fun s => s.registry.names) (fun hstep _ => hstep.names) he
  rwa [State.start, Naming.Registry.reserveAll_names] at hadds

theorem Stage.Of.enumOf (h : g.Of r) {type : EnumType} (ht : type ∈ g.model.enums) :
    EnumOf (rootNodes g.schema) type := by
  obtain ⟨s, hsteps, -, henums, -⟩ := h.steps
  have hadds := hsteps.adds (fun hstep _ => hstep.enums) (henums.mem_iff.mp ht)
  exact hadds.resolve_left (List.not_mem_nil)

theorem Stage.Of.targetOf (h : g.Of r) {name : String} (hn : name ∈ g.model.refs) :
    TargetOf (rootNodes g.schema) name := by
  obtain ⟨s, hsteps, -, -, hrefs⟩ := h.steps
  rw [hrefs, mem_sortedNames] at hn
  have hadds := hsteps.adds (fun hstep _ => hstep.refs) hn
  exact hadds.resolve_left (List.not_mem_nil)

theorem Stage.Of.mem_imports (h : g.Of r) {e : External} :
    e ∈ g.model.imports ↔
      e = .objectMeta ∨ e = .listMeta ∨ ∃ t ∈ g.model.types, e ∈ t.externals := by
  have himports := @mem_lower_imports r g.schema g.descriptor e
  rwa [h.lowered] at himports

/-- What is known after all stages was free at a site of one of them, or it is older. -/
theorem Chain.named {r' : Naming.Registry} {stages : List Stage} (h : Chain r stages r')
    {entry : Signature × String} (he : entry ∈ r'.names) :
    entry ∈ r.names ∨
      ∃ g ∈ stages, NamedBelow g.descriptor.kind (lowerKeys g.schema) entry.2 := by
  induction h with
  | nil r => exact .inl he
  | @cons r r' g rest hg _ ih =>
      rcases ih he with he | ⟨later, hlater, hnamed⟩
      · exact (hg.named he).imp_right fun hnamed => ⟨g, List.mem_cons_self, hnamed⟩
      · exact .inr ⟨later, List.mem_cons_of_mem _ hlater, hnamed⟩

end Lowering

open Lowering

namespace Compilation

def keys (options : Options) (definitions : List Definition) : List String :=
  definitions.flatMap fun d =>
    match d.select options.version with
    | .ok (_, schema) => lowerKeys schema
    | .error _ => []

def pointers (options : Options) (definitions : List Definition) : List String :=
  (nodes options definitions).filterMap Schema.pointer?

namespace Accepted

variable {options : Options} {definitions : List Definition} {b : Batch} {stages : List Stage}

theorem exists_stage_of_mem (h : Accepted options definitions b stages) {m : TypeModel}
    (hm : m ∈ b.resources) : ∃ g ∈ stages, m = options.finish g.model ∧ ∃ r, g.Of r := by
  rw [h.resources] at hm
  obtain ⟨g, hg, rfl⟩ := List.mem_map.mp hm
  exact ⟨g, hg, rfl, h.chain.of_mem hg⟩

theorem keys_eq (h : Accepted options definitions b stages) :
    keys options definitions = stages.flatMap fun g => lowerKeys g.schema := by
  have hs := h.selects
  clear h
  induction hs with
  | nil => rfl
  | cons hsel _ ih =>
      obtain ⟨version, hselect, -⟩ := hsel
      rw [keys, List.flatMap_cons, List.flatMap_cons, hselect]
      exact congrArg _ ih

theorem lowerKeys_subset (h : Accepted options definitions b stages) {g : Stage}
    (hg : g ∈ stages) : lowerKeys g.schema ⊆ keys options definitions := by
  intro key hk
  rw [h.keys_eq]
  exact List.mem_flatMap.mpr ⟨g, hg, hk⟩

theorem exists_definition (h : Accepted options definitions b stages) {g : Stage}
    (hg : g ∈ stages) : ∃ d ∈ definitions, g.descriptor.kind = d.kind := by
  have hkind : g.descriptor.kind ∈ stages.map (fun g => g.descriptor.kind) :=
    List.mem_map_of_mem hg
  rw [h.map_descriptor (f := (·.kind)) fun _ _ => rfl] at hkind
  obtain ⟨d, hd, heq⟩ := List.mem_map.mp hkind
  exact ⟨d, hd, heq.symm⟩

/-- The name of a nested type was free at a site below the kind of some definition. -/
theorem nested_named (h : Accepted options definitions b stages) {m : TypeModel}
    (hm : m ∈ b.resources) {name : String} (hn : name ∈ m.nestedNames) :
    ∃ d ∈ definitions, NamedBelow d.kind (keys options definitions) name := by
  obtain ⟨g, hg, rfl, r, ho⟩ := h.exists_stage_of_mem hm
  rw [TypeModel.finish_nestedNames, ho.nestedNames_perm.mem_iff] at hn
  obtain ⟨made, hmade, rfl⟩ := List.mem_map.mp hn
  have hentry := h.chain.mem_names.mpr (.inl ⟨g, hg, made, hmade, rfl⟩)
  have hstart : made.entry ∉ (startRegistry definitions).names := by
    rw [startRegistry_names]
    exact List.not_mem_nil
  obtain ⟨maker, hmaker, hnamed⟩ := (h.chain.named hentry).resolve_left hstart
  obtain ⟨d, hd, hkind⟩ := h.exists_definition hmaker
  rw [hkind] at hnamed
  exact ⟨d, hd, hnamed.mono (h.lowerKeys_subset hmaker)⟩

/-- The target of a reference is the name that some pointer ends in. -/
theorem refs_target (h : Accepted options definitions b stages) {m : TypeModel}
    (hm : m ∈ b.resources) {name : String} (hn : name ∈ m.refs) :
    ∃ pointer ∈ pointers options definitions, name = Naming.refName pointer := by
  obtain ⟨g, hg, rfl, r, ho⟩ := h.exists_stage_of_mem hm
  rw [TypeModel.finish_refs] at hn
  obtain ⟨node, hnode, pointer, hpointer, hname⟩ := ho.targetOf hn
  exact ⟨pointer, List.mem_filterMap.mpr ⟨node, h.rootNodes_subset hg hnode, hpointer⟩, hname⟩

/-- The base of an enumeration is the type of a scalar. -/
theorem enum_base (h : Accepted options definitions b stages) {m : TypeModel}
    (hm : m ∈ b.resources) {e : EnumType} (he : e ∈ m.enums) :
    ∃ scalar format, e.base = scalarType scalar format := by
  obtain ⟨g, -, rfl, r, ho⟩ := h.exists_stage_of_mem hm
  rw [TypeModel.finish_enums] at he
  obtain ⟨node, -, scalar, format, literals, -, hbase, -⟩ := ho.enumOf he
  exact ⟨scalar, format, hbase⟩

end Accepted

end Compilation

end ResourceTypes
