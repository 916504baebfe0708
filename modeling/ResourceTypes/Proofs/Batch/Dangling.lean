import ResourceTypes.Proofs.Batch.Declarations
import ResourceTypes.Proofs.Lowering.Targets

/-! # Dangling references

The targets that resources list are just those that their fields hold and that no type is made for,
so a batch reports what is referred to and not defined. What is defined is meant to be what the
files declare, but the structure of a list is declared without being counted. A reference to a list
is therefore reported although the list is there.
-/

namespace ResourceTypes

open Lowering Compilation Code

def Batch.Refers (b : Batch) (name : String) : Prop :=
  ∃ m ∈ b.resources, ∃ field ∈ m.fields, name ∈ field.type.names

def Batch.Declares (b : Batch) (name : String) : Prop :=
  ∃ m ∈ b.resources, ∃ d ∈ declarations m, d.name = name

def Batch.IsList (b : Batch) (name : String) : Prop :=
  ∃ m ∈ b.resources, m.descriptor.listKind = name

theorem Batch.mem_danglingRefs {b : Batch} {name : String} :
    name ∈ b.danglingRefs ↔
      (∃ m ∈ b.resources, name ∈ m.refs) ∧ ∀ m ∈ b.resources, name ∉ m.definedNames := by
  simp [Batch.danglingRefs, mem_sortedNames]

/-- A file declares what its model defines, and the list. -/
theorem Code.exists_declaration {m : TypeModel} {name : String} :
    (∃ d ∈ declarations m, d.name = name) ↔
      name ∈ m.definedNames ∨ m.descriptor.listKind = name := by
  rw [← List.mem_map, declaration_names, TypeModel.definedNames_eq]
  simp only [List.mem_cons, @eq_comm _ name]
  tauto

theorem Batch.declares_iff {b : Batch} {name : String} :
    b.Declares name ↔ (∃ m ∈ b.resources, name ∈ m.definedNames) ∨ b.IsList name := by
  simp only [Batch.Declares, Batch.IsList, exists_declaration, and_or_left, exists_or]

namespace Compilation.Accepted

variable {options : Options} {definitions : List Definition} {b : Batch} {stages : List Stage}
  {m : TypeModel}

/-- What a resource lists, one of its fields holds. -/
theorem refs_held (h : Accepted options definitions b stages) (hm : m ∈ b.resources) :
    ∀ name ∈ m.refs, ∃ field ∈ m.fields, name ∈ field.type.names := by
  intro name hn
  obtain ⟨g, -, rfl, r, ho⟩ := h.exists_stage_of_mem hm
  rw [TypeModel.finish_refs] at hn
  have hmodel : g.model = (lower r g.schema g.descriptor).1 := by rw [ho.lowered]
  have hheld : name ∈ g.model.fields.flatMap fun f => f.type.names := by
    rw [hmodel] at hn ⊢
    exact List.mem_flatMap.mpr (lower_refs_held r g.schema g.descriptor name hn)
  rw [← TypeModel.finish_flatMap TypeRef.relax_names options] at hheld
  exact List.mem_flatMap.mp hheld

/-- Lists have names of their own. -/
theorem list_not_defined (h : Accepted options definitions b stages) (hm : m ∈ b.resources)
    {m' : TypeModel} (hm' : m' ∈ b.resources) : m.descriptor.listKind ∉ m'.definedNames := by
  have hlist := h.list_name_mem hm
  rw [TypeModel.definedNames_eq, List.mem_cons, not_or]
  constructor
  · have hdisjoint := (List.nodup_append.mp h.typeNames_nodup).2.2
    exact (hdisjoint _ (h.root_name_mem hm') _ hlist).symm
  · intro hn
    have hreserved : m.descriptor.listKind ∈ (startRegistry definitions).reserved :=
      mem_startRegistry.mpr (.inr (List.mem_append_right _ hlist))
    exact h.nestedNames_fresh.2 _ (List.mem_flatMap.mpr ⟨m', hm', hn⟩) hreserved

end Compilation.Accepted

/-- A name in a field that no resource defines is the target of a reference. -/
theorem mem_refs_of_undefined {options : Options} {definitions : List Definition} {b : Batch}
    (h : (compileBatch options definitions).batch = .ok b) {m : TypeModel}
    (hm : m ∈ b.resources) {field : Field} (hf : field ∈ m.fields) {name : String}
    (hn : name ∈ field.type.names) (hundefined : ∀ m ∈ b.resources, name ∉ m.definedNames) :
    name ∈ m.refs := by
  obtain ⟨i, hi⟩ := List.mem_iff_getElem?.mp hm
  rcases names_resolve h hi hf name hn with ⟨j, -, m', hj, hnested⟩ | href
  · have hdefined : name ∈ m'.definedNames := by
      rw [TypeModel.definedNames_eq]
      exact List.mem_cons_of_mem _ hnested
    exact (hundefined m' (List.mem_of_getElem? hj) hdefined).elim
  · exact href

/-- A batch reports a name just when a field holds it and no file declares a type of it, or it is
the name of a list. Which types a file declares can be seen in its lines. -/
theorem dangling_refs {options : Options} {definitions : List Definition} {b : Batch}
    (h : (compileBatch options definitions).batch = .ok b) :
    (∀ m ∈ b.resources, (resourceLines m).filter isDeclaration =
      (declarations m).map Declaration.line) ∧
    ∀ name, name ∈ b.danglingRefs ↔ b.Refers name ∧ (¬b.Declares name ∨ b.IsList name) := by
  obtain ⟨stages, ha⟩ := exists_stages h
  refine ⟨fun m _ => filter_isDeclaration_resourceLines m, fun name => ?_⟩
  rw [Batch.mem_danglingRefs, Batch.declares_iff]
  constructor
  · rintro ⟨⟨m, hm, hn⟩, hundefined⟩
    refine ⟨⟨m, hm, ha.refs_held hm name hn⟩, ?_⟩
    by_cases hlist : b.IsList name
    · exact .inr hlist
    · exact .inl (not_or.mpr ⟨fun ⟨m', hm', hd⟩ => hundefined m' hm' hd, hlist⟩)
  · rintro ⟨⟨m, hm, field, hf, hn⟩, hstatus⟩
    have hundefined : ∀ m ∈ b.resources, name ∉ m.definedNames := by
      intro m' hm' hd
      rcases hstatus with hundeclared | ⟨other, ho, rfl⟩
      · exact hundeclared (.inl ⟨m', hm', hd⟩)
      · exact ha.list_not_defined ho hm' hd
    exact ⟨⟨m, hm, mem_refs_of_undefined h hm hf hn hundefined⟩, hundefined⟩

def pointed (pointer : String) : List Definition :=
  [.single "Widget" "widgets" "shop.io" "v1"
    (.mk none (.object [("spec", .mk none (.ref pointer))] none false))]

/-- A target that is missing is reported. -/
theorem podSpec_dangling :
    ∃ b, (compileBatch ⟨none, false⟩ (pointed "#/definitions/PodSpec")).batch = .ok b ∧
      b.Refers "PodSpec" ∧ ¬b.Declares "PodSpec" := by
  have hbatch : (compileBatch ⟨none, false⟩ (pointed "#/definitions/PodSpec")).batch.toOption.map
      (fun b => (b.danglingRefs, b.resources.map (·.descriptor.listKind))) =
        some (["PodSpec"], ["WidgetList"]) := by
    decide +kernel
  obtain ⟨b, hb, hresult⟩ := exists_batch hbatch
  obtain ⟨hdangling, hlists⟩ := Prod.mk.inj hresult
  have hmem : "PodSpec" ∈ b.danglingRefs := hdangling ▸ List.mem_singleton_self _
  obtain ⟨hrefers, hundeclared | ⟨m, hm, hlist⟩⟩ := (dangling_refs hb).2 "PodSpec" |>.mp hmem
  · exact ⟨b, hb, hrefers, hundeclared⟩
  · have hname := List.mem_map_of_mem (f := (·.descriptor.listKind)) hm
    rw [hlists, hlist] at hname
    exact absurd hname (by decide)

/-- The list of the resource is reported as missing, though the file declares it. -/
theorem widgetList_dangling :
    ∃ b, (compileBatch ⟨none, false⟩ (pointed "#/definitions/WidgetList")).batch = .ok b ∧
      "WidgetList" ∈ b.danglingRefs ∧ b.Declares "WidgetList" ∧
      ∃ m ∈ b.resources, "pub struct WidgetList \x7b" ∈ resourceLines m := by
  have hbatch : (compileBatch ⟨none, false⟩ (pointed "#/definitions/WidgetList")).batch.toOption.map
      (fun b => (b.danglingRefs, b.resources.map (·.descriptor.listKind))) =
        some (["WidgetList"], ["WidgetList"]) := by
    decide +kernel
  obtain ⟨b, hb, hresult⟩ := exists_batch hbatch
  obtain ⟨hdangling, hlists⟩ := Prod.mk.inj hresult
  have hlist : "WidgetList" ∈ b.resources.map (·.descriptor.listKind) :=
    hlists ▸ List.mem_singleton_self _
  obtain ⟨m, hm, hname⟩ := List.mem_map.mp hlist
  have hdeclared : .struct "WidgetList" ∈ declarations m := by
    rw [← hname]
    exact List.mem_cons_of_mem _ List.mem_cons_self
  have hline : Declaration.line (.struct "WidgetList") ∈
      (resourceLines m).filter isDeclaration := by
    rw [filter_isDeclaration_resourceLines]
    exact List.mem_map_of_mem hdeclared
  exact ⟨b, hb, hdangling ▸ List.mem_singleton_self _, ⟨m, hm, _, hdeclared, rfl⟩, m, hm,
    List.mem_of_mem_filter hline⟩

end ResourceTypes
