import ResourceTypes.Proofs.Batch.Acceptance
import ResourceTypes.Proofs.Batch.Scope
import ResourceTypes.Proofs.Batch.Sharing
import ResourceTypes.Proofs.Lowering.Leaves

/-! # What the options decide

Optional fields are a rewriting of types that is done when everything else is settled: of each model
before the next one is lowered, but with the registry that lowering has left. A desired version only
matters where it selects another version of some definition than the stored one.
-/

namespace ResourceTypes

open Lowering Compilation

/-! ## Batches with optional fields -/

/-- The batch in which the fields of nested structures are optional. -/
def Batch.relax (b : Batch) : Batch :=
  { b with resources := b.resources.map TypeModel.relax }

def Compiled.relax (c : Compiled) : Compiled :=
  ⟨c.batch.map Batch.relax, c.warnings⟩

def Compilation.Run.relax (run : Run) : Run :=
  { run with models := run.models.map (·.map TypeModel.relax) }

/-! ## What is rewritten -/

/-- Whether a structure is another one with other types of fields: a list or a map stays one, of
optional elements, and any other type is optional itself. -/
structure StructType.Relaxes (s s' : StructType) : Prop where
  name : s'.name = s.name
  path : s'.path = s.path
  description : s'.description = s.description
  isRoot : s'.isRoot = s.isRoot
  fields : List.Forall₂ (fun f f' : Field => f'.name = f.name ∧ f'.jsonKey = f.jsonKey ∧
    f'.type = f.type.relax ∧ f'.description = f.description ∧ f'.enumRef = f.enumRef)
      s.fields s'.fields

/-- Whether a model is another one with other nested structures. -/
structure TypeModel.Relaxes (m m' : TypeModel) : Prop where
  descriptor : m'.descriptor = m.descriptor
  root : m'.root = m.root
  structs : List.Forall₂ StructType.Relaxes m.structs m'.structs
  enums : m'.enums = m.enums
  imports : m'.imports = m.imports
  refs : m'.refs = m.refs

/-- Whether a batch is another one with the types of the fields of nested structures rewritten. -/
structure Batch.Relaxes (b b' : Batch) : Prop where
  group : b'.group = b.group
  version : b'.version = b.version
  resources : List.Forall₂ TypeModel.Relaxes b.resources b'.resources

theorem forall₂_iff_map_eq {α β : Type} {R : α → β → Prop} {f : α → β}
    (h : ∀ a b, R a b ↔ f a = b) {l : List α} {l' : List β} :
    List.Forall₂ R l l' ↔ l.map f = l' := by
  have hmap : l.map f = l' ↔ List.Forall₂ (fun a b => f a = b) l l' := by
    rw [← List.forall₂_eq_eq_eq, List.forall₂_map_left_iff]
  rw [hmap]
  exact ⟨.imp fun a b => (h a b).mp, .imp fun a b => (h a b).mpr⟩

theorem StructType.relaxes_iff (s s' : StructType) : s.Relaxes s' ↔ s.relax = s' := by
  have hfield : ∀ f f' : Field, (f'.name = f.name ∧ f'.jsonKey = f.jsonKey ∧
      f'.type = f.type.relax ∧ f'.description = f.description ∧ f'.enumRef = f.enumRef) ↔
        { f with type := f.type.relax } = f' := by
    rintro ⟨⟩ ⟨⟩
    simp [eq_comm]
  constructor
  · rintro ⟨hname, hpath, hdescription, hroot, hfields⟩
    rw [forall₂_iff_map_eq hfield] at hfields
    rw [relax, hfields, ← hname, ← hpath, ← hdescription, ← hroot]
  · rintro rfl
    exact ⟨rfl, rfl, rfl, rfl, (forall₂_iff_map_eq hfield).mpr rfl⟩

theorem TypeModel.relaxes_iff (m m' : TypeModel) : m.Relaxes m' ↔ m.relax = m' := by
  constructor
  · rintro ⟨hdescriptor, hroot, hstructs, henums, himports, hrefs⟩
    rw [forall₂_iff_map_eq StructType.relaxes_iff] at hstructs
    rw [relax, hstructs, ← hdescriptor, ← hroot, ← henums, ← himports, ← hrefs]
  · rintro rfl
    exact ⟨rfl, rfl, (forall₂_iff_map_eq StructType.relaxes_iff).mpr rfl, rfl, rfl, rfl⟩

/-- The rewriting is the only one that leaves everything else as it is. -/
theorem Batch.relaxes_iff (b b' : Batch) : b.Relaxes b' ↔ b.relax = b' := by
  constructor
  · rintro ⟨hgroup, hversion, hresources⟩
    rw [forall₂_iff_map_eq TypeModel.relaxes_iff] at hresources
    rw [relax, hresources, ← hgroup, ← hversion]
  · rintro rfl
    exact ⟨rfl, rfl, (forall₂_iff_map_eq TypeModel.relaxes_iff).mpr rfl⟩

@[simp] theorem StructType.relax_relax (s : StructType) : s.relax.relax = s.relax := by
  simp [relax]

@[simp] theorem TypeModel.relax_relax (m : TypeModel) : m.relax.relax = m.relax := by
  have hcomp : StructType.relax ∘ StructType.relax = StructType.relax :=
    funext StructType.relax_relax
  simp [relax, hcomp]

theorem Batch.relax_relax (b : Batch) : b.relax.relax = b.relax := by
  have hcomp : TypeModel.relax ∘ TypeModel.relax = TypeModel.relax :=
    funext TypeModel.relax_relax
  simp [relax, hcomp]

theorem TypeModel.relax_definedNames (m : TypeModel) : m.relax.definedNames = m.definedNames := by
  have hname : (fun s : StructType => s.name) ∘ StructType.relax = (·.name) := rfl
  simp [definedNames, relax, hname]

theorem Batch.relax_danglingRefs (b : Batch) : b.relax.danglingRefs = b.danglingRefs := by
  have hdefined : b.relax.resources.flatMap (·.definedNames) =
      b.resources.flatMap (·.definedNames) := by
    simp only [relax, List.flatMap_map, TypeModel.relax_definedNames]
  have hrefs : b.relax.resources.flatMap (·.refs) = b.resources.flatMap (·.refs) := by
    rw [relax, List.flatMap_map]
    rfl
  rw [danglingRefs, danglingRefs, hdefined, hrefs]

/-! ## Types without optional layers -/

def StructType.required (s : StructType) : StructType :=
  { s with fields := s.fields.map fun f => { f with type := f.type.required } }

def EnumType.required (e : EnumType) : EnumType :=
  { e with base := e.base.required }

def TypeModel.required (m : TypeModel) : TypeModel :=
  { m with
    root := m.root.required
    structs := m.structs.map StructType.required
    enums := m.enums.map EnumType.required }

def Batch.required (b : Batch) : Batch :=
  { b with resources := b.resources.map TypeModel.required }

theorem StructType.relax_required (s : StructType) : s.relax.required = s.required := by
  simp [relax, required]

theorem StructType.required_of_fields {s : StructType}
    (h : ∀ f ∈ s.fields, f.type.required = f.type) : s.required = s := by
  have hfield : ∀ f ∈ s.fields, { f with type := f.type.required } = id f := by
    intro f hf
    rw [h f hf, id]
  rw [required, List.map_congr_left hfield, List.map_id]

theorem EnumType.required_of_base {e : EnumType} (h : e.base.required = e.base) :
    e.required = e := by
  rw [required, h]

/-- Required types are optional at most where they have been made so. -/
theorem TypeModel.relax_required {m : TypeModel} (h : ∀ t ∈ m.types, t.required = t) :
    m.relax.required = m := by
  have hfield : ∀ s ∈ m.root :: m.structs, ∀ f ∈ s.fields, f.type.required = f.type := by
    intro s hs f hf
    apply h
    exact List.mem_append_left _ (List.mem_map_of_mem (List.mem_flatMap.mpr ⟨s, hs, hf⟩))
  have hroot : m.root.required = m.root :=
    StructType.required_of_fields (hfield m.root List.mem_cons_self)
  have hstructs : (m.structs.map StructType.relax).map StructType.required = m.structs := by
    have hstruct : ∀ s ∈ m.structs, s.relax.required = id s := by
      intro s hs
      rw [StructType.relax_required, id,
        StructType.required_of_fields (hfield s (List.mem_cons_of_mem _ hs))]
    rw [List.map_map]
    exact (List.map_congr_left hstruct).trans (List.map_id _)
  have henums : m.enums.map EnumType.required = m.enums := by
    have henum : ∀ e ∈ m.enums, e.required = id e := by
      intro e he
      exact EnumType.required_of_base (h e.base (List.mem_append_right _ (List.mem_map_of_mem he)))
    exact (List.map_congr_left henum).trans (List.map_id _)
  simp only [relax, required, hroot, hstructs, henums]

namespace Lowering

theorem scalarType_required (kind : ScalarKind) (format : Option String) :
    (scalarType kind format).required = scalarType kind format := by
  unfold scalarType
  split <;> rfl

end Lowering

theorem TypeRef.Elementary.required_eq {t : TypeRef} (h : t.Elementary) : t.required = t := by
  cases h with
  | scalar kind format => exact scalarType_required kind format
  | bareObject key preserveUnknown =>
      unfold bareObjectType
      split
      · rfl
      · split <;> rfl
  | external e => rfl
  | list => rfl

/-- Lowering makes nothing optional. -/
theorem Lowering.translate_required {memo : Memo} {key : String} {s : Schema} {lowered : Lowered}
    (h : translate memo key s = some lowered) : lowered.type.required = lowered.type := by
  have hnamed : ∀ {s : Schema} {lowered : Lowered} {text : List Char}, s.fragment? = some text →
      translate memo key s = some lowered → lowered.type.required = lowered.type := by
    intro s lowered text hf h
    obtain ⟨name, -, htype⟩ := translate_of_fragment hf h
    rw [htype]
    rfl
  induction s using Schema.lowering_induction generalizing lowered with
  | leaf s hp hc =>
      cases he : s.enumLiterals? with
      | some literals => exact hnamed (Schema.fragment_of_enumLiterals he) h
      | none =>
          rcases translate_elementary hp hc he h with helementary | ⟨-, pointer, htype⟩
          · exact helementary.required_eq
          · rw [htype]
            rfl
  | content s container c hc ih =>
      rw [translate_of_content hc] at h
      obtain ⟨inner, hi, rfl⟩ := Option.map_eq_some_iff.mp h
      have hinner := ih hi
      rcases Schema.shape_of_content hc with ⟨_, _, rfl⟩ | ⟨_, _, _, _, _, _, rfl⟩
      · exact congrArg TypeRef.sequence hinner
      · exact congrArg TypeRef.mapping hinner
  | struct s properties hp => exact hnamed (Schema.fragment_of_structProperties hp) h

namespace Compilation

/-- A model of required fields has no optional layer. -/
theorem Accepted.required_types {version : Option String} {definitions : List Definition}
    {b : Batch} {stages : List Stage} (h : Accepted ⟨version, false⟩ definitions b stages)
    {m : TypeModel} (hm : m ∈ b.resources) : ∀ t ∈ m.types, t.required = t := by
  intro t ht
  rcases List.mem_append.mp ht with ht | ht
  · obtain ⟨field, hf, rfl⟩ := List.mem_map.mp ht
    obtain ⟨g, -, rfl, r, ho⟩ := h.exists_stage_of_mem hm
    obtain ⟨-, property, -, hfield⟩ := ho.field hf
    obtain ⟨lowered, hl, rfl⟩ := Option.map_eq_some_iff.mp hfield
    exact translate_required hl
  · obtain ⟨e, he, rfl⟩ := List.mem_map.mp ht
    obtain ⟨scalar, format, hbase⟩ := h.enum_base hm he
    rw [hbase, scalarType_required]

theorem Accepted.relax_required {version : Option String} {definitions : List Definition}
    {b : Batch} {stages : List Stage} (h : Accepted ⟨version, false⟩ definitions b stages) :
    b.relax.required = b := by
  have hmodel : ∀ m ∈ b.resources, m.relax.required = id m := fun m hm =>
    TypeModel.relax_required (h.required_types hm)
  have hresources : (b.resources.map TypeModel.relax).map TypeModel.required = b.resources := by
    rw [List.map_map]
    exact (List.map_congr_left hmodel).trans (List.map_id _)
  simp only [Batch.relax, Batch.required, hresources]

/-! ## The same run with and without optional fields -/

/-- The definitions that are left are lowered with the same registry either way. -/
theorem compileFrom_optional (version : Option String) (first : Option Descriptor)
    (r : Naming.Registry) (definitions : List Definition) :
    compileFrom ⟨version, true⟩ first r definitions =
      (compileFrom ⟨version, false⟩ first r definitions).relax := by
  induction definitions generalizing first r with
  | nil => rfl
  | cons d rest ih =>
      rw [compileFrom, compileFrom]
      cases hs : d.select version with
      | error error => rfl
      | ok selected =>
          cases hd : disagreement? first d selected.1 with
          | some error => simp only [hd]; rfl
          | none =>
              simp only [hd, ih, Run.relax]
              cases (compileFrom ⟨version, false⟩ (some (first.getD (d.descriptor selected.1.name)))
                (lower r selected.2 (d.descriptor selected.1.name)).2 rest).models <;> rfl

theorem batchOf_relax (models : List TypeModel) :
    batchOf (models.map TypeModel.relax) = (batchOf models).relax := by
  cases models <;> rfl

theorem run_optional (version : Option String) (definitions : List Definition) :
    run ⟨version, true⟩ definitions = (run ⟨version, false⟩ definitions).relax := by
  rw [run, run]
  split
  · rfl
  · exact compileFrom_optional version none _ definitions

theorem compileBatch_optional (version : Option String) (definitions : List Definition) :
    compileBatch ⟨version, true⟩ definitions =
      (compileBatch ⟨version, false⟩ definitions).relax := by
  rw [compileBatch, compileBatch, run_optional]
  cases hm : (run ⟨version, false⟩ definitions).models with
  | error error => simp only [Run.relax, hm]; rfl
  | ok models =>
      simp only [Run.relax, hm, Except.map, batchOf_relax, Batch.relax_danglingRefs]
      rfl

end Compilation

/-- Optional fields are a rewriting of a finished batch, for all definitions and every desired
version. The compilation has the same error and the same warnings, and its batch is the one of
required fields with the types of the fields of nested structures rewritten, and nothing else. To
rewrite them twice is to rewrite them once, the batch of required fields comes back when all
optional layers are removed, the same names dangle, and the imports of a model are still both sorts
of metadata and the external types that occur in it. -/
theorem optional_fields_last (version : Option String) (definitions : List Definition) :
    compileBatch ⟨version, true⟩ definitions = (compileBatch ⟨version, false⟩ definitions).relax ∧
    (∀ error, (compileBatch ⟨version, true⟩ definitions).batch = .error error ↔
      (compileBatch ⟨version, false⟩ definitions).batch = .error error) ∧
    ∀ b, (compileBatch ⟨version, false⟩ definitions).batch = .ok b →
      (compileBatch ⟨version, true⟩ definitions).batch = .ok b.relax ∧
      b.Relaxes b.relax ∧
      b.relax.relax = b.relax ∧
      b.relax.required = b ∧
      b.relax.danglingRefs = b.danglingRefs ∧
      ∀ m ∈ b.relax.resources, ∀ e, e ∈ m.imports ↔ e = .objectMeta ∨ e = .listMeta ∨
        (∃ field ∈ m.fields, e ∈ field.type.externals) ∨
        ∃ enum ∈ m.enums, e ∈ enum.base.externals := by
  have hoptional := compileBatch_optional version definitions
  refine ⟨hoptional, ?_, ?_⟩
  · intro error
    rw [hoptional]
    exact map_eq_error_iff
  · intro b hb
    have hrelaxed : (compileBatch ⟨version, true⟩ definitions).batch = .ok b.relax := by
      rw [hoptional, Compiled.relax, hb]
      rfl
    obtain ⟨stages, ha⟩ := exists_stages hb
    obtain ⟨stages', ha'⟩ := exists_stages hrelaxed
    refine ⟨hrelaxed, (b.relaxes_iff _).mpr rfl, b.relax_relax, ha.relax_required,
      b.relax_danglingRefs, ?_⟩
    intro m hm e
    rw [ha'.mem_imports hm]
    simp [TypeModel.types, or_and_right, exists_or]

theorem sampleDefinitions_optional_fields :
    ∃ b, (compileBatch ⟨none, false⟩ sampleDefinitions).batch = .ok b ∧
      (compileBatch ⟨none, true⟩ sampleDefinitions).batch = .ok b.relax ∧
      b.relax.required = b := by
  obtain ⟨b, hb⟩ := sampleDefinitions_accepted false
  obtain ⟨hrelaxed, -, -, hrequired, -⟩ := (optional_fields_last none sampleDefinitions).2.2 b hb
  exact ⟨b, hb, hrelaxed, hrequired⟩

/-! ## The stored version as the desired one -/

/-- A stored version that is selected is also selected by its name. -/
theorem Definition.Picks.pinned {d : Definition} {v : Version} (h : d.Picks none v) :
    d.Picks (some v.name) v := by
  obtain ⟨before, after, hd, hfits, hbefore⟩ := h
  refine ⟨before, after, hd, ⟨hfits.1, ?_⟩, ?_⟩
  · intro name hname
    exact Option.some.inj hname
  · intro other ho hother
    exact hbefore other ho ⟨hother.1, by simp⟩

namespace Compilation

/-- A definition that offers its stored version offers the same by its name. -/
theorem select_pinned {d : Definition} {group version : String}
    (h : d.Offers none group version) : d.select (some version) = d.select none := by
  obtain ⟨-, v, hpicks, hschema, rfl⟩ := h
  obtain ⟨schema, hs⟩ := Option.ne_none_iff_exists'.mp hschema
  rw [Definition.select_eq_ok_iff.mpr ⟨hpicks, hs⟩,
    Definition.select_eq_ok_iff.mpr ⟨hpicks.pinned, hs⟩]

/-- The desired version has no effect but the selection. -/
theorem compileFrom_congr {version other : Option String} {optional : Bool}
    {definitions : List Definition} (h : ∀ d ∈ definitions, d.select version = d.select other)
    (first : Option Descriptor) (r : Naming.Registry) :
    compileFrom ⟨version, optional⟩ first r definitions =
      compileFrom ⟨other, optional⟩ first r definitions := by
  induction definitions generalizing first r with
  | nil => rfl
  | cons d rest ih =>
      have hrest : ∀ d ∈ rest, d.select version = d.select other := fun d hd =>
        h d (List.mem_cons_of_mem _ hd)
      simp only [compileFrom, h d List.mem_cons_self, ih hrest]

theorem compileBatch_congr {version other : Option String} {definitions : List Definition}
    (h : ∀ d ∈ definitions, d.select version = d.select other) (optional : Bool) :
    compileBatch ⟨version, optional⟩ definitions = compileBatch ⟨other, optional⟩ definitions := by
  simp only [compileBatch, run, compileFrom_congr h]

end Compilation

/-- To desire the version that a batch of stored versions has anyway changes nothing, neither the
batch nor what is reported. -/
theorem chosen_version_pinned {optional : Bool} {definitions : List Definition} {b : Batch}
    (h : (compileBatch ⟨none, optional⟩ definitions).batch = .ok b) :
    (compileBatch ⟨some b.version, optional⟩ definitions).batch = .ok b ∧
      (compileBatch ⟨some b.version, optional⟩ definitions).warnings =
        (compileBatch ⟨none, optional⟩ definitions).warnings := by
  have hoffers := (batch_identity h).1
  have hselect : ∀ d ∈ definitions, d.select (some b.version) = d.select none := fun d hd =>
    select_pinned (hoffers d hd)
  rw [compileBatch_congr hselect optional]
  exact ⟨h, rfl⟩

/-- Two stored versions of one name stand behind one that is not stored. -/
theorem repeated_version_pinned :
    let version (name : String) (storage : Bool) (schema : Schema) : Version :=
      ⟨name, true, storage, some schema⟩
    let widget : Definition := ⟨"Widget", "widgets", "WidgetList", "shop.io",
      [version "v1" false sampleEnum, version "v2" true sampleObject, version "v1" true sampleEnum,
        version "v2" true sampleEnum]⟩
    ∃ b, (compileBatch ⟨none, true⟩ [widget]).batch = .ok b ∧ b.version = "v2" ∧
      (compileBatch ⟨some "v2", true⟩ [widget]).batch = .ok b := by
  intro version widget
  have hversion : (compileBatch ⟨none, true⟩ [widget]).batch.toOption.map (·.version) =
      some "v2" := by
    decide +kernel
  obtain ⟨b, hb, hv⟩ := exists_batch hversion
  have hpinned := (chosen_version_pinned hb).1
  rw [hv] at hpinned
  exact ⟨b, hb, hv, hpinned⟩

end ResourceTypes
