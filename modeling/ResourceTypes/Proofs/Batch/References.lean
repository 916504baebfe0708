import Mathlib.Data.List.Nodup
import ResourceTypes.Proofs.Batch.Names
import ResourceTypes.Proofs.Batch.Shapes

/-! # References resolve

A name is handed out before its type is complete, and it is handed out again wherever the shape
comes back. When a resource is finished, all names that its fields hold belong to types of this
resource or an earlier one, but for the targets of references, which the model lists.
-/

namespace ResourceTypes

open Lowering Compilation

namespace TypeRef

def core : TypeRef → TypeRef
  | .sequence t => t.core
  | .mapping t => t.core
  | .optional t => t.core
  | t => t

@[simp] theorem orNone_names (t : TypeRef) : t.orNone.names = t.names := by
  cases t <;> rfl

@[simp] theorem orNone_core (t : TypeRef) : t.orNone.core = t.core := by
  cases t <;> rfl

@[simp] theorem relax_names (t : TypeRef) : t.relax.names = t.names := by
  cases t <;> simp [relax, names]

@[simp] theorem relax_core (t : TypeRef) : t.relax.core = t.core := by
  cases t <;> simp [relax, core]

end TypeRef

/-- Making fields optional leaves the names in their types and their enumerations alone. -/
theorem TypeModel.exists_field_of_finish {options : Options} {m : TypeModel} {field : Field}
    (h : field ∈ (options.finish m).fields) :
    ∃ f ∈ m.fields, field.type.names = f.type.names ∧ field.type.core = f.type.core ∧
      field.enumRef = f.enumRef := by
  rw [fields, List.flatMap_cons, List.mem_append, finish_root, finish_structs] at h
  rcases h with h | h
  · exact ⟨field, List.mem_append_left _ h, rfl, rfl, rfl⟩
  · obtain ⟨finished, hfinished, hf⟩ := List.mem_flatMap.mp h
    obtain ⟨s, hs, rfl⟩ := List.mem_map.mp hfinished
    obtain ⟨f, hmem, -, henum, htype⟩ := StructType.exists_field_of_finish hf
    refine ⟨f, List.mem_append_right _ (List.mem_flatMap.mpr ⟨s, hs, hmem⟩), ?_, ?_, henum⟩
    · rcases htype with ht | ht <;> simp [ht]
    · rcases htype with ht | ht <;> simp [ht]

/-- Lists without common elements hold an element at one place only. -/
theorem index_unique {α β : Type} {f : α → List β} {l : List α} (hd : (l.flatMap f).Nodup)
    {i j : Nat} {a b : α} (hi : l[i]? = some a) (hj : l[j]? = some b) {x : β} (ha : x ∈ f a)
    (hb : x ∈ f b) : i = j := by
  have hp := List.pairwise_iff_getElem.mp (List.nodup_flatMap.mp hd).2
  obtain ⟨hil, rfl⟩ := List.getElem?_eq_some_iff.mp hi
  obtain ⟨hjl, rfl⟩ := List.getElem?_eq_some_iff.mp hj
  rcases Nat.lt_trichotomy i j with hlt | heq | hlt
  · exact (hp i j hil hjl hlt ha hb).elim
  · exact heq
  · exact (hp j i hjl hil hlt hb ha).elim

namespace Lowering

/-- A field that points to an enumeration has its type, below containers. -/
theorem translate_enumRef {memo : Memo} {key : String} {s : Schema} {lowered : Lowered}
    (h : translate memo key s = some lowered) {name : String} (hn : lowered.enumRef = some name) :
    lowered.type.core = .named name ∧ ∃ node ∈ s.nodes, ∃ literals,
      node.enumLiterals? = some literals ∧ memo (.ofLiterals literals) = some name := by
  induction s using Schema.lowering_induction generalizing lowered with
  | leaf s hp hc =>
      cases he : s.enumLiterals? with
      | none =>
          obtain ⟨type, htype⟩ := translate_of_leaf hp hc he key
          rw [htype] at h
          cases h
          cases hn
      | some literals =>
          rw [translate_of_enumLiterals he] at h
          obtain ⟨found, hm, rfl⟩ := Option.map_eq_some_iff.mp h
          cases hn
          exact ⟨rfl, s, s.self_mem_nodes, literals, he, hm⟩
  | content s container c hc ih =>
      rw [translate_of_content hc] at h
      obtain ⟨inner, hi, rfl⟩ := Option.map_eq_some_iff.mp h
      obtain ⟨hcore, node, hnode, hl⟩ := ih hi hn
      refine ⟨?_, node, ?_, hl⟩
      · rcases Schema.shape_of_content hc with ⟨_, _, rfl⟩ | ⟨_, _, _, _, _, _, rfl⟩
        · exact hcore
        · exact hcore
      · rw [Schema.nodes_of_content hc]
        exact List.mem_cons_of_mem _ hnode
  | struct s properties hp =>
      rw [translate_of_structProperties hp] at h
      obtain ⟨found, -, rfl⟩ := Option.map_eq_some_iff.mp h
      cases hn

/-- Every field of a model is the translation of a property that lowering comes to. -/
theorem Stage.Of.field {r : Naming.Registry} {g : Stage} (h : g.Of r) {field : Field}
    (hf : field ∈ g.model.fields) : Resolved g.state field.type ∧
      ∃ property : String × Schema, property.2.nodes ⊆ rootNodes g.schema ∧
        translateField g.state.registry.memo property = some field := by
  rw [TypeModel.fields, List.flatMap_cons, List.mem_append] at hf
  rcases hf with hf | hf
  · obtain ⟨fields, ht, hroot, hr⟩ := h.root
    have hm := mem_sortFields.mp (hroot ▸ hf)
    obtain ⟨property, hp, hfield⟩ := ht.exists_property hm
    refine ⟨hr field hm, property, ?_, hfield⟩
    intro node hn
    exact Schema.mem_propertyNodes.mpr ⟨property, hp, hn⟩
  · obtain ⟨type, hs, hf⟩ := List.mem_flatMap.mp hf
    obtain ⟨m, hm, htype⟩ := List.mem_filterMap.mp (h.structs.mem_iff.mp hs)
    cases m with
    | enum literals found => cases htype
    | struct properties found =>
        cases htype
        obtain ⟨⟨node, hnode, hp⟩, fields, ht, hfields, hr⟩ := h.sound _ hm
        have hmem := mem_sortFields.mp (hfields ▸ hf)
        obtain ⟨property, hproperty, hfield⟩ := ht.exists_property hmem
        refine ⟨hr field hmem, property, ?_, hfield⟩
        obtain ⟨root, hroot, hbelow⟩ := Schema.mem_propertyNodes.mp hnode
        intro other ho
        refine Schema.mem_propertyNodes.mpr ⟨root, hroot, Schema.nodes_subset_of_mem hbelow ?_⟩
        rw [Schema.nodes_of_structProperties hp]
        exact List.mem_cons_of_mem _ (Schema.mem_propertyNodes.mpr ⟨property, hproperty, ho⟩)

end Lowering

namespace Compilation.Accepted

variable {options : Options} {definitions : List Definition} {b : Batch} {stages : List Stage}

/-- What a stage has made stands in its resource. -/
theorem mem_nestedNames (h : Accepted options definitions b stages) {g : Stage} (hg : g ∈ stages)
    {m : Made} (hm : m ∈ g.made) : m.name ∈ (options.finish g.model).nestedNames := by
  obtain ⟨r, ho⟩ := h.chain.of_mem hg
  rw [TypeModel.finish_nestedNames, ho.nestedNames_perm.mem_iff]
  exact List.mem_map_of_mem hm

end Compilation.Accepted

/-- A name in the type of a field is that of a structure or an enumeration of the same resource or
an earlier one, or else the target of a reference, which may be the root of any resource. -/
theorem names_resolve {options : Options} {definitions : List Definition} {b : Batch}
    (h : (compileBatch options definitions).batch = .ok b) {i : Nat} {m : TypeModel}
    (hi : b.resources[i]? = some m) {field : Field} (hf : field ∈ m.fields) :
    ∀ name ∈ field.type.names,
      (∃ j ≤ i, ∃ m', b.resources[j]? = some m' ∧ name ∈ m'.nestedNames) ∨ name ∈ m.refs := by
  obtain ⟨stages, ha⟩ := exists_stages h
  obtain ⟨g, hg, rfl⟩ := ha.exists_stage_of_resource hi
  obtain ⟨r, ho⟩ := ha.chain.of_mem (List.mem_of_getElem? hg)
  obtain ⟨f, hfm, hnames, -, -⟩ := TypeModel.exists_field_of_finish hf
  intro name hname
  rw [hnames] at hname
  rcases (ho.field hfm).1 name hname with hknown | href
  · left
    obtain ⟨entry, hentry, rfl⟩ := List.mem_map.mp hknown
    rcases ha.chain.made_upTo hg hentry with ⟨j, hj, g', hg', made, hmade, rfl⟩ | hold
    · exact ⟨j, hj, _, ha.resource_of_stage hg',
        ha.mem_nestedNames (List.mem_of_getElem? hg') hmade⟩
    · rw [startRegistry_names] at hold
      simp at hold
  · right
    rw [TypeModel.finish_refs, ho.refs, mem_sortedNames]
    exact href

/-- A field that points to an enumeration has its type, below containers, and the enumeration stands
in exactly one resource, the same one or an earlier one. -/
theorem enumRef_resolves {options : Options} {definitions : List Definition} {b : Batch}
    (h : (compileBatch options definitions).batch = .ok b)
    (hcf : Digest.CollisionFree (fragments options definitions)) {i : Nat} {m : TypeModel}
    (hi : b.resources[i]? = some m) {field : Field} (hf : field ∈ m.fields) {name : String}
    (hn : field.enumRef = some name) :
    field.type.core = .named name ∧
      ∃ j ≤ i, (∃ m', b.resources[j]? = some m' ∧ name ∈ m'.enums.map (·.name)) ∧
        ∀ k m', b.resources[k]? = some m' → name ∈ m'.enums.map (·.name) → k = j := by
  obtain ⟨stages, ha⟩ := exists_stages h
  obtain ⟨g, hg, rfl⟩ := ha.exists_stage_of_resource hi
  have hgmem := List.mem_of_getElem? hg
  obtain ⟨r, ho⟩ := ha.chain.of_mem hgmem
  obtain ⟨f, hfm, -, hcore, henum⟩ := TypeModel.exists_field_of_finish hf
  obtain ⟨-, property, hbelow, htranslated⟩ := ho.field hfm
  obtain ⟨lowered, hl, rfl⟩ := Option.map_eq_some_iff.mp htranslated
  obtain ⟨htype, node, hnode, literals, hliterals, hmemo⟩ :=
    translate_enumRef hl (henum.symm.trans hn)
  refine ⟨hcore.trans htype, ?_⟩
  obtain ⟨j, hj, g', hg', made, hmade, hfragment, rfl⟩ := ha.made_upTo hcf hg
    (ha.rootNodes_subset hgmem (hbelow hnode)) (Schema.fragment_of_enumLiterals hliterals) hmemo
  obtain ⟨found, type, rfl, -⟩ := Made.enum_of_fragment hfragment
  have hg'mem := List.mem_of_getElem? hg'
  obtain ⟨r', ho'⟩ := ha.chain.of_mem hg'mem
  have hmem : type ∈ (options.finish g'.model).enums := by
    rw [TypeModel.finish_enums, ho'.enums.mem_iff]
    exact List.mem_filterMap.mpr ⟨_, hmade, rfl⟩
  refine ⟨j, hj, ⟨_, ha.resource_of_stage hg', List.mem_map_of_mem hmem⟩, ?_⟩
  intro k m' hk hname
  exact index_unique ha.nestedNames_fresh.1 hk (ha.resource_of_stage hg')
    (List.mem_append_right _ hname) (ha.mem_nestedNames hg'mem hmade)

/-- Every reference of a batch resolves. -/
theorem references_resolve {options : Options} {definitions : List Definition} {b : Batch}
    (h : (compileBatch options definitions).batch = .ok b)
    (hcf : Digest.CollisionFree (fragments options definitions)) :
    ∀ (i : Nat) (m : TypeModel), b.resources[i]? = some m → ∀ field ∈ m.fields,
      (∀ name ∈ field.type.names,
        (∃ j ≤ i, ∃ m', b.resources[j]? = some m' ∧ name ∈ m'.nestedNames) ∨ name ∈ m.refs) ∧
      ∀ name, field.enumRef = some name → field.type.core = .named name ∧
        ∃ j ≤ i, (∃ m', b.resources[j]? = some m' ∧ name ∈ m'.enums.map (·.name)) ∧
          ∀ k m', b.resources[k]? = some m' → name ∈ m'.enums.map (·.name) → k = j :=
  fun _ _ hi _ hf => ⟨names_resolve h hi hf, fun _ hn => enumRef_resolves h hcf hi hf hn⟩

theorem sampleDefinitions_references_resolve :
    Digest.CollisionFree (fragments ⟨none, true⟩ sampleDefinitions) ∧
      ∃ b, (compileBatch ⟨none, true⟩ sampleDefinitions).batch = .ok b ∧
        ∀ (i : Nat) (m : TypeModel), b.resources[i]? = some m → ∀ field ∈ m.fields,
          ∀ name, field.enumRef = some name → field.type.core = .named name := by
  have hcf := sampleDefinitions_collisionFree true
  obtain ⟨b, hb⟩ := sampleDefinitions_accepted true
  refine ⟨hcf, b, hb, ?_⟩
  intro i m hi field hf name hn
  exact ((references_resolve hb hcf i m hi field hf).2 name hn).1

end ResourceTypes
