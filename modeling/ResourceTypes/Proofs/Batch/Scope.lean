import ResourceTypes.Proofs.Batch.Breaks

/-! # Identifiers are in scope

A file imports just what its fields and aliases use. What is imported was gathered before fields
became optional, and the file looks for maps and for names of siblings by itself, so all three have
to agree on what occurs inside a type.
-/

namespace ResourceTypes

open Lowering Compilation

namespace TypeRef

/-- A type and all types inside it. -/
def parts : TypeRef → List TypeRef
  | .sequence t => .sequence t :: t.parts
  | .mapping t => .mapping t :: t.parts
  | .optional t => .optional t :: t.parts
  | t => [t]

theorem mem_externals {t : TypeRef} {e : External} : e ∈ t.externals ↔ .external e ∈ t.parts := by
  induction t with
  | sequence t ih | mapping t ih | optional t ih => simp [externals, parts, ih]
  | _ => simp [externals, parts]

theorem mem_names {t : TypeRef} {name : String} : name ∈ t.names ↔ .named name ∈ t.parts := by
  induction t with
  | sequence t ih | mapping t ih | optional t ih => simp [names, parts, ih]
  | _ => simp [names, parts]

theorem hasMapping_iff {t : TypeRef} : t.hasMapping = true ↔ ∃ value, .mapping value ∈ t.parts := by
  induction t with
  | sequence t ih | optional t ih => simp [hasMapping, parts, ih]
  | mapping t ih => simp [hasMapping, parts]
  | _ => simp [hasMapping, parts]

@[simp] theorem orNone_externals (t : TypeRef) : t.orNone.externals = t.externals := by
  cases t <;> rfl

@[simp] theorem relax_externals (t : TypeRef) : t.relax.externals = t.externals := by
  cases t <;> simp [relax, externals]

end TypeRef

/-! ## What the types of a model use -/

namespace TypeModel

/-- Making fields optional leaves alone what their types hold below containers. -/
theorem finish_flatMap {α : Type} {g : TypeRef → List α} (hg : ∀ t, g t.relax = g t)
    (options : Options) (m : TypeModel) :
    (options.finish m).fields.flatMap (fun f => g f.type) = m.fields.flatMap fun f => g f.type := by
  have hstruct : ∀ s : StructType, (options.finishStruct s).fields.flatMap (fun f => g f.type) =
      s.fields.flatMap fun f => g f.type := by
    intro s
    unfold Options.finishStruct
    split
    · simp [StructType.relax, List.flatMap_map, hg]
    · rfl
  simp [fields, finish_root, finish_structs, List.flatMap_map, List.flatMap_assoc, hstruct]

theorem finish_externals (options : Options) (m : TypeModel) :
    (options.finish m).types.flatMap TypeRef.externals = m.types.flatMap TypeRef.externals := by
  have hfields := finish_flatMap TypeRef.relax_externals options m
  simp only [types, List.flatMap_append, List.flatMap_map, finish_enums, hfields]

theorem finish_imports (options : Options) (m : TypeModel) :
    (options.finish m).imports = m.imports := by
  unfold Options.finish
  split <;> rfl

theorem definedNames_eq (m : TypeModel) : m.definedNames = m.root.name :: m.nestedNames :=
  rfl

end TypeModel

theorem scalarType_hasMapping (kind : ScalarKind) (format : Option String) :
    (scalarType kind format).hasMapping = false := by
  unfold scalarType
  split <;> rfl

namespace Compilation.Accepted

variable {options : Options} {definitions : List Definition} {b : Batch} {stages : List Stage}
  {m : TypeModel}

/-- The imports of a resource are both sorts of metadata and what its types hold. -/
theorem mem_imports (h : Accepted options definitions b stages) (hm : m ∈ b.resources)
    {e : External} :
    e ∈ m.imports ↔ e = .objectMeta ∨ e = .listMeta ∨ ∃ t ∈ m.types, e ∈ t.externals := by
  obtain ⟨g, -, rfl, r, ho⟩ := h.exists_stage_of_mem hm
  rw [TypeModel.finish_imports, ho.mem_imports, ← List.mem_flatMap, ← List.mem_flatMap,
    TypeModel.finish_externals]

/-- What no scalar has, some type of the model has just when the type of some field has it. -/
theorem exists_type_iff (h : Accepted options definitions b stages) (hm : m ∈ b.resources)
    {P : TypeRef → Prop} (hP : ∀ scalar format, ¬P (scalarType scalar format)) :
    (∃ t ∈ m.types, P t) ↔ ∃ field ∈ m.fields, P field.type := by
  constructor
  · rintro ⟨t, ht, hp⟩
    rcases List.mem_append.mp ht with ht | ht
    · obtain ⟨field, hf, rfl⟩ := List.mem_map.mp ht
      exact ⟨field, hf, hp⟩
    · obtain ⟨e, he, rfl⟩ := List.mem_map.mp ht
      obtain ⟨scalar, format, hbase⟩ := h.enum_base hm he
      rw [hbase] at hp
      exact (hP scalar format hp).elim
  · rintro ⟨field, hf, hp⟩
    exact ⟨field.type, List.mem_append_left _ (List.mem_map_of_mem hf), hp⟩

/-- A file imports maps just when a field has one at any depth. -/
theorem any_hasMapping (h : Accepted options definitions b stages) (hm : m ∈ b.resources) :
    m.types.any TypeRef.hasMapping = true ↔
      ∃ field ∈ m.fields, ∃ value, .mapping value ∈ field.type.parts := by
  have hscalar : ∀ scalar format, ¬(scalarType scalar format).hasMapping = true := fun _ _ =>
    ne_true_of_eq_false (scalarType_hasMapping _ _)
  rw [List.any_eq_true, h.exists_type_iff hm hscalar]
  simp only [TypeRef.hasMapping_iff]

/-- A file imports its siblings just when a field holds a name that the model does not define. -/
theorem needsSiblings_iff (h : Accepted options definitions b stages) (hm : m ∈ b.resources) :
    Code.needsSiblings m = true ↔
      ∃ field ∈ m.fields, ∃ name, .named name ∈ field.type.parts ∧ name ∉ m.definedNames := by
  have hscalar : ∀ scalar format,
      ¬∃ name ∈ (scalarType scalar format).names, name ∉ m.definedNames := by
    intro scalar format
    rw [scalarType_names]
    simp
  have hnames : Code.needsSiblings m = true ↔
      ∃ t ∈ m.types, ∃ name ∈ t.names, name ∉ m.definedNames := by
    simp [Code.needsSiblings, List.any_flatMap]
  rw [hnames, h.exists_type_iff hm hscalar]
  simp only [TypeRef.mem_names]

end Compilation.Accepted

/-- What a field names without defining it is defined by another resource or is the target of a
reference. -/
theorem foreign_names_resolve {options : Options} {definitions : List Definition} {b : Batch}
    (h : (compileBatch options definitions).batch = .ok b) {i : Nat} {m : TypeModel}
    (hi : b.resources[i]? = some m) {field : Field} (hf : field ∈ m.fields) {name : String}
    (hn : .named name ∈ field.type.parts) (hforeign : name ∉ m.definedNames) :
    (∃ j ≠ i, ∃ m', b.resources[j]? = some m' ∧ name ∈ m'.definedNames) ∨ name ∈ m.refs := by
  rcases names_resolve h hi hf name (TypeRef.mem_names.mpr hn) with ⟨j, -, m', hj, hmem⟩ | href
  · left
    rw [TypeModel.definedNames_eq] at hforeign
    refine ⟨j, ?_, m', hj, List.mem_cons_of_mem _ hmem⟩
    rintro rfl
    cases hi.symm.trans hj
    exact hforeign (List.mem_cons_of_mem _ hmem)
  · exact .inr href

/-! ## The imports of a file -/

namespace TypeModel

/-- Whether an external type is that of some metadata or occurs in a field or below an alias. -/
def Needs (m : TypeModel) (e : External) : Prop :=
  e = .objectMeta ∨ e = .listMeta ∨ (∃ field ∈ m.fields, .external e ∈ field.type.parts) ∨
    ∃ enum ∈ m.enums, .external e ∈ enum.base.parts

/-- Whether a field has a mapping at any depth. -/
def HoldsMapping (m : TypeModel) : Prop :=
  ∃ field ∈ m.fields, ∃ value, .mapping value ∈ field.type.parts

def HoldsForeign (m : TypeModel) : Prop :=
  ∃ field ∈ m.fields, ∃ name, .named name ∈ field.type.parts ∧ name ∉ m.definedNames

end TypeModel

section Imports

variable {options : Options} {definitions : List Definition} {b : Batch} {m : TypeModel}

/-- What is imported stands in the file, whatever the other lines are. -/
theorem useLine_mem_linesOf {path : String} (hp : path ∈ Code.usePaths m) :
    Code.useLine path ∈ Code.linesOf (Code.resourceFile b m).contents := by
  have hline := Code.unbroken_useLine (Code.unbroken_usePath hp)
  rw [Code.resourceFile_contents]
  exact Code.unbroken_mem_linesOf (Code.useLine_mem_resourceLines.mpr hp) hline

/-- Nothing else is imported as long as no kind has a line break. -/
theorem mem_usePaths_of_linesOf (h : (compileBatch options definitions).batch = .ok b)
    (hkinds : b.UnbrokenKinds) (hm : m ∈ b.resources) {path : String}
    (hline : Code.useLine path ∈ Code.linesOf (Code.resourceFile b m).contents) :
    path ∈ Code.usePaths m := by
  rw [linesOf_resourceFile h hkinds hm] at hline
  rcases List.mem_append.mp hline with hline | hend
  · exact Code.useLine_mem_resourceLines.mp hline
  · have huse := Code.isUse_useLine path
    rw [List.mem_singleton.mp hend] at huse
    exact absurd huse (by decide)

theorem externalPath_mem_usePaths_iff (h : (compileBatch options definitions).batch = .ok b)
    (hm : m ∈ b.resources) {e : External} : e.path ∈ Code.usePaths m ↔ m.Needs e := by
  obtain ⟨stages, ha⟩ := exists_stages h
  rw [Code.externalPath_mem_usePaths, ha.mem_imports hm]
  simp [TypeModel.Needs, TypeModel.types, TypeRef.mem_externals, or_and_right, exists_or]

theorem mapPath_mem_usePaths_iff (h : (compileBatch options definitions).batch = .ok b)
    (hm : m ∈ b.resources) : Code.mapPath ∈ Code.usePaths m ↔ m.HoldsMapping := by
  obtain ⟨stages, ha⟩ := exists_stages h
  rw [Code.mapPath_mem_usePaths, ha.any_hasMapping hm, TypeModel.HoldsMapping]

theorem siblingsPath_mem_usePaths_iff (h : (compileBatch options definitions).batch = .ok b)
    (hm : m ∈ b.resources) : Code.siblingsPath ∈ Code.usePaths m ↔ m.HoldsForeign := by
  obtain ⟨stages, ha⟩ := exists_stages h
  rw [Code.siblingsPath_mem_usePaths, ha.needsSiblings_iff hm, TypeModel.HoldsForeign]

/-- Whatever the fields and aliases of a file use is in scope: the file has a line for each external
type that it needs, for maps if a field has one, and for its siblings if a field has a name that the
file does not define. Such a name is defined by another resource, or a reference asked for it. The
file has these lines for no other reason, unless a line break in a kind makes one. -/
theorem identifiers_in_scope (h : (compileBatch options definitions).batch = .ok b) {i : Nat}
    (hi : b.resources[i]? = some m) :
    Code.resourceFile b m ∈ Code.files b ∧
      (∀ e, m.Needs e → Code.useLine e.path ∈ Code.linesOf (Code.resourceFile b m).contents) ∧
      (m.HoldsMapping →
        "use std::collections::BTreeMap;" ∈ Code.linesOf (Code.resourceFile b m).contents) ∧
      (m.HoldsForeign → "use super::*;" ∈ Code.linesOf (Code.resourceFile b m).contents) ∧
      (b.UnbrokenKinds →
        (∀ e, Code.useLine e.path ∈ Code.linesOf (Code.resourceFile b m).contents → m.Needs e) ∧
        ("use std::collections::BTreeMap;" ∈ Code.linesOf (Code.resourceFile b m).contents →
          m.HoldsMapping) ∧
        ("use super::*;" ∈ Code.linesOf (Code.resourceFile b m).contents → m.HoldsForeign)) ∧
      ∀ field ∈ m.fields, ∀ name, .named name ∈ field.type.parts → name ∉ m.definedNames →
        (∃ j ≠ i, ∃ m', b.resources[j]? = some m' ∧ name ∈ m'.definedNames) ∨ name ∈ m.refs := by
  have hm := List.mem_of_getElem? hi
  have hmap : "use std::collections::BTreeMap;" = Code.useLine Code.mapPath := by decide
  have hsiblings : "use super::*;" = Code.useLine Code.siblingsPath := by decide
  rw [hmap, hsiblings]
  refine ⟨?_, fun e he => ?_, fun hmapping => ?_, fun hforeign => ?_, fun hkinds => ?_,
    fun _ hf _ hn hforeign => foreign_names_resolve h hi hf hn hforeign⟩
  · rw [Code.files_eq, List.append_assoc]
    exact List.mem_append_left _ (List.mem_map_of_mem hm)
  · exact useLine_mem_linesOf ((externalPath_mem_usePaths_iff h hm).mpr he)
  · exact useLine_mem_linesOf ((mapPath_mem_usePaths_iff h hm).mpr hmapping)
  · exact useLine_mem_linesOf ((siblingsPath_mem_usePaths_iff h hm).mpr hforeign)
  · have hpath : ∀ path, Code.useLine path ∈ Code.linesOf (Code.resourceFile b m).contents →
        path ∈ Code.usePaths m := fun _ hline => mem_usePaths_of_linesOf h hkinds hm hline
    exact ⟨fun e hline => (externalPath_mem_usePaths_iff h hm).mp (hpath _ hline),
      fun hline => (mapPath_mem_usePaths_iff h hm).mp (hpath _ hline),
      fun hline => (siblingsPath_mem_usePaths_iff h hm).mp (hpath _ hline)⟩

end Imports

/-- The second resource has a list of the objects of the first one. -/
def siblingDefinitions : List Definition :=
  [.single "Widget" "widgets" "shop.io" "v1"
      (.mk none (.object [("spec", sampleObject)] none false)),
    .single "Gadget" "gadgets" "shop.io" "v1"
      (.mk none (.object [("spec", .mk none (.array (some sampleObject)))] none false))]

theorem siblingDefinitions_imports :
    ∃ b m, (compileBatch ⟨none, true⟩ siblingDefinitions).batch = .ok b ∧
      b.resources[1]? = some m ∧ b.UnbrokenKinds ∧
      "use super::*;" ∈ Code.linesOf (Code.resourceFile b m).contents ∧
      "use std::collections::BTreeMap;" ∉ Code.linesOf (Code.resourceFile b m).contents := by
  have hmodel : (compileBatch ⟨none, true⟩ siblingDefinitions).batch.toOption.map (fun b =>
      (b.resources.all (fun m => Code.Unbroken m.descriptor.kind ∧
          Code.Unbroken m.descriptor.listKind),
        (b.resources[1]?).map fun m => (m.fields.any fun field =>
          field.type.names.any (· ∉ m.definedNames), m.fields.any (·.type.hasMapping)))) =
      some (true, some (true, false)) := by
    decide +kernel
  obtain ⟨b, hb, hparts⟩ := exists_batch hmodel
  obtain ⟨hkinds, hsecond⟩ := Prod.mk.inj hparts
  obtain ⟨m, hm, hfields⟩ := Option.map_eq_some_iff.mp hsecond
  obtain ⟨hforeign, hmapping⟩ := Prod.mk.inj hfields
  have hunbroken : b.UnbrokenKinds := fun m hm => by
    simpa using List.all_eq_true.mp hkinds m hm
  obtain ⟨-, -, -, hneeded, honly, -⟩ := identifiers_in_scope hb hm
  refine ⟨b, m, hb, hm, hunbroken, hneeded ?_, fun hline => ?_⟩
  · obtain ⟨field, hf, hname⟩ := List.any_eq_true.mp hforeign
    obtain ⟨name, hn, hnone⟩ := List.any_eq_true.mp hname
    exact ⟨field, hf, name, TypeRef.mem_names.mp hn, of_decide_eq_true hnone⟩
  · obtain ⟨field, hf, value, hvalue⟩ := (honly hunbroken).2.1 hline
    have hnone := List.any_eq_false.mp hmapping field hf
    exact hnone (TypeRef.hasMapping_iff.mpr ⟨value, hvalue⟩)

def importingKind : String :=
  "A;\nuse super::*;\nuse std::collections::BTreeMap;\npub struct B"

theorem importingKind_imports :
    ∃ b m, (compileBatch ⟨none, false⟩ [.single importingKind "as" "shop.io" "v1"
          (.mk none (.object [] none false))]).batch = .ok b ∧
      b.resources[0]? = some m ∧
      "use super::*;" ∈ Code.linesOf (Code.resourceFile b m).contents ∧ ¬m.HoldsForeign ∧
      "use std::collections::BTreeMap;" ∈ Code.linesOf (Code.resourceFile b m).contents ∧
      ¬m.HoldsMapping := by
  have hmodel : (compileBatch ⟨none, false⟩ [.single importingKind "as" "shop.io" "v1"
      (.mk none (.object [] none false))]).batch.toOption.map (fun b =>
        (b.resources[0]?).map fun m => (m.root.name, m.fields.isEmpty)) =
      some (some (importingKind, true)) := by
    decide +kernel
  obtain ⟨b, hb, hfirst⟩ := exists_batch hmodel
  obtain ⟨m, hm, hparts⟩ := Option.map_eq_some_iff.mp hfirst
  obtain ⟨hname, hfields⟩ := Prod.mk.inj hparts
  have hnone : ∀ field, field ∉ m.fields := by
    rw [List.isEmpty_iff.mp hfields]
    exact fun _ => List.not_mem_nil
  have hmem : ∀ l ∈ ["use super::*;", "use std::collections::BTreeMap;"],
      l ∈ Code.linesOf (Code.resourceFile b m).contents := by
    have hhead : Code.openItem ("pub struct " ++ m.root.name) ∈ Code.resourceLines m := by
      simp [Code.resourceLines, Code.rootLines]
    have hpieces : ∀ l ∈ ["use super::*;", "use std::collections::BTreeMap;"],
        l ∈ Code.linesOf (Code.openItem ("pub struct " ++ importingKind)) := by
      decide +kernel
    rw [hname] at hhead
    intro l hl
    rw [Code.resourceFile_contents]
    exact Code.mem_linesOf_textOf hhead (hpieces l hl)
  refine ⟨b, m, hb, hm, hmem _ (by simp), ?_, hmem _ (by simp), ?_⟩
  · rintro ⟨field, hf, -⟩
    exact hnone field hf
  · rintro ⟨field, hf, -⟩
    exact hnone field hf

end ResourceTypes
