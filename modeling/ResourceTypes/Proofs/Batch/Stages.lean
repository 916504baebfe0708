import Mathlib.Data.List.Forall2
import ResourceTypes.Proofs.Batch.Conflicts
import ResourceTypes.Proofs.Lowering.Outcome
import ResourceTypes.Proofs.Sorted

/-! # Stages of a compilation

A compilation that succeeds goes through one stage for each definition. A stage starts with the
registry that the stage before has left, and its model holds exactly the types that it has made.
-/

namespace ResourceTypes

namespace Lowering

def rootProperties (schema : Schema) : List (String × Schema) :=
  (rootProperties? schema).getD []

def rootNodes (schema : Schema) : List Schema :=
  Schema.propertyNodes (rootProperties schema)

def State.start (r : Naming.Registry) : State :=
  ⟨r, [], [], []⟩

@[simp] theorem State.start_registry (r : Naming.Registry) : (State.start r).registry = r :=
  rfl

/-- One resource: what was lowered and what came of it. -/
structure Stage where
  schema : Schema
  descriptor : Descriptor
  model : TypeModel
  state : State
  made : List Made

structure Stage.Of (r : Naming.Registry) (g : Stage) : Prop where
  lowered : lower r g.schema g.descriptor = (g.model, g.state.registry)
  grows : Grows (.start r) g.state g.made
  sound : ∀ m ∈ g.made, m.Sound g.state (rootNodes g.schema)
  root : ∃ fields, Translates g.state.registry.memo (rootProperties g.schema) fields ∧
    g.model.root.fields = sortFields fields ∧ ∀ field ∈ fields, Resolved g.state field.type
  rootName : g.model.root.name = g.descriptor.kind
  descriptor : g.model.descriptor = g.descriptor
  structs : g.model.structs.Perm (g.made.filterMap Made.struct?)
  enums : g.model.enums.Perm (g.made.filterMap Made.enum?)
  refs : g.model.refs = sortedNames g.state.refs

/-- The enumerations of a model are sorted, and nothing else is done to them. -/
theorem lower_enums_perm (r : Naming.Registry) (schema : Schema) (d : Descriptor) :
    (lower r schema d).1.enums.Perm (lowerFields d.kind [d.kind] true (rootProperties schema)
      (.start (r.reserveAll (ownNames d)))).2.enums := by
  unfold lower
  exact List.mergeSort_perm _ _

/-- A resource whose own names are taken already goes through a stage. -/
theorem exists_stage {r : Naming.Registry} (schema : Schema) {d : Descriptor}
    (h : ∀ name ∈ ownNames d, name ∈ r.reserved) :
    ∃ g : Stage, g.schema = schema ∧ g.descriptor = d ∧ g.Of r := by
  have hstart : r.reserveAll (ownNames d) = r := Naming.Registry.reserveAll_of_subset h
  have hf := lowerFields_outcome d.kind [d.kind] true (rootProperties schema) (.start r)
  generalize hres :
    lowerFields d.kind [d.kind] true (rootProperties schema) (.start r) = result at hf
  obtain ⟨fields, state⟩ := result
  obtain ⟨⟨made, hg, hs⟩, ht, hr⟩ := hf
  have hl : lower r schema d = ((lower r schema d).1, state.registry) := by
    refine Prod.ext rfl ?_
    rw [lower, hstart]
    exact congrArg (·.2.registry) hres
  have hf : (lower r schema d).1.root.fields = sortFields fields := by
    rw [lower, hstart]
    exact congrArg (sortFields ·.1) hres
  have hm : (lower r schema d).1.structs.Perm state.structs := by
    rw [lower, hstart]
    exact (List.mergeSort_perm _ _).trans (.of_eq (congrArg (·.2.structs) hres))
  have he : (lower r schema d).1.enums.Perm state.enums := by
    have hperm := lower_enums_perm r schema d
    rwa [hstart, hres] at hperm
  have href : (lower r schema d).1.refs = sortedNames state.refs := by
    rw [lower, hstart]
    exact congrArg (sortedNames ·.2.refs) hres
  exact ⟨⟨schema, d, (lower r schema d).1, state, made⟩, rfl, rfl,
    ⟨hl, hg, hs, ⟨fields, ht, hf, hr⟩, rfl, rfl, hm.trans hg.structs, he.trans hg.enums, href⟩⟩

/-- Stages that follow each other from one registry to another. -/
inductive Chain : Naming.Registry → List Stage → Naming.Registry → Prop
  | nil (r : Naming.Registry) : Chain r [] r
  | cons {r r' : Naming.Registry} {g : Stage} {rest : List Stage} :
      g.Of r → Chain g.state.registry rest r' → Chain r (g :: rest) r'

namespace Chain

variable {r r' : Naming.Registry} {stages : List Stage}

/-- The names after some stages are those of the types that they made and those before them. -/
theorem mem_names (h : Chain r stages r') {entry : Signature × String} :
    entry ∈ r'.names ↔ (∃ g ∈ stages, ∃ m ∈ g.made, m.entry = entry) ∨ entry ∈ r.names := by
  induction h with
  | nil r =>
      simp
  | cons hg _ ih =>
      rw [ih, hg.grows.names, List.mem_append, List.mem_map]
      simp only [List.mem_cons, exists_eq_or_imp, State.start, ← or_assoc]
      exact or_congr_left or_comm

theorem memo (h : Chain r stages r') : r.memo.Extends r'.memo := by
  induction h with
  | nil r =>
      exact fun _ _ hn => hn
  | cons hg _ ih =>
      exact fun signature name hn => ih signature name (hg.grows.memo signature name hn)

theorem signatures_nodup (h : Chain r stages r') (hr : (r.names.map (·.1)).Nodup) :
    (r'.names.map (·.1)).Nodup := by
  induction h with
  | nil r =>
      exact hr
  | cons hg _ ih =>
      exact ih (hg.grows.signatures hr)

theorem reserved_nodup (h : Chain r stages r') (hr : r.reserved.Nodup) : r'.reserved.Nodup := by
  induction h with
  | nil r =>
      exact hr
  | cons hg _ ih =>
      exact ih (hg.grows.nodup hr)

theorem reserved_perm (h : Chain r stages r') :
    r'.reserved.Perm (stages.flatMap (fun g => g.made.map Made.name) ++ r.reserved) := by
  induction h with
  | nil r =>
      exact .refl _
  | cons hg _ ih =>
      refine ih.trans ?_
      rw [hg.grows.reserved, List.flatMap_cons, ← List.append_assoc, State.start]
      exact List.perm_append_comm.append_right _

theorem memo_of_mem (h : Chain r stages r') {g : Stage} (hg : g ∈ stages) :
    g.state.registry.memo.Extends r'.memo := by
  induction h with
  | nil r =>
      simp at hg
  | cons hfirst hrest ih =>
      rcases List.mem_cons.mp hg with rfl | hg
      · exact hrest.memo
      · exact ih hg

theorem names_perm (h : Chain r stages r') :
    (r'.names.map (·.2)).Perm
      (stages.flatMap (fun g => g.made.map Made.name) ++ r.names.map (·.2)) := by
  induction h with
  | nil r =>
      exact .refl _
  | @cons r r' g rest hg _ ih =>
      have hentries : (g.made.map Made.entry).map (·.2) = g.made.map Made.name := by
        rw [List.map_map]
        rfl
      refine ih.trans ?_
      rw [hg.grows.names, List.map_append, hentries, List.flatMap_cons, ← List.append_assoc]
      exact List.perm_append_comm.append_right _

theorem of_mem (h : Chain r stages r') {g : Stage} (hg : g ∈ stages) : ∃ r₁, g.Of r₁ := by
  induction h with
  | nil r =>
      simp at hg
  | cons hfirst _ ih =>
      rcases List.mem_cons.mp hg with rfl | hg
      · exact ⟨_, hfirst⟩
      · exact ih hg

/-- What every stage keeps holds of the registry before each of them. -/
theorem before {P : Naming.Registry → Prop} (h : Chain r stages r')
    (hstep : ∀ r, ∀ g ∈ stages, g.Of r → P r → P g.state.registry) (hr : P r) {g : Stage}
    (hg : g ∈ stages) : ∃ r₁, g.Of r₁ ∧ P r₁ := by
  induction h with
  | nil r =>
      simp at hg
  | @cons r r' first rest hfirst _ ih =>
      rcases List.mem_cons.mp hg with rfl | hg
      · exact ⟨r, hfirst, hr⟩
      · have hnext := hstep r first List.mem_cons_self hfirst hr
        exact ih (fun r other ho => hstep r other (List.mem_cons_of_mem _ ho)) hnext hg

/-- A name that is known after a stage was made by this stage or an earlier one, or is older than
all of them. -/
theorem made_upTo (h : Chain r stages r') {i : Nat} {g : Stage} (hi : stages[i]? = some g)
    {entry : Signature × String} (he : entry ∈ g.state.registry.names) :
    (∃ j ≤ i, ∃ g', stages[j]? = some g' ∧ ∃ m ∈ g'.made, m.entry = entry) ∨
      entry ∈ r.names := by
  induction h generalizing i with
  | nil r =>
      simp at hi
  | @cons r r' first rest hfirst _ ih =>
      have hnames : ∀ {other}, other ∈ first.state.registry.names →
          (∃ m ∈ first.made, m.entry = other) ∨ other ∈ r.names := by
        intro other ho
        rwa [hfirst.grows.names, List.mem_append, List.mem_map] at ho
      cases i with
      | zero =>
          cases hi
          exact (hnames he).imp (fun hm => ⟨0, Nat.le_refl 0, g, rfl, hm⟩) id
      | succ i =>
          rcases ih hi with ⟨j, hj, g', hg', hm⟩ | hold
          · exact .inl ⟨j + 1, Nat.succ_le_succ hj, g', hg', hm⟩
          · exact (hnames hold).imp (fun hm => ⟨0, Nat.zero_le _, first, rfl, hm⟩) id

end Chain

end Lowering

/-- A model as it stands in a batch. -/
def Options.finish (options : Options) (m : TypeModel) : TypeModel :=
  if options.optional then m.relax else m

namespace Compilation

open Lowering

/-- Whether a stage lowers the version that is selected of a definition. -/
def Selects (options : Options) (d : Definition) (g : Stage) : Prop :=
  ∃ version, d.select options.version = .ok (version, g.schema) ∧
    g.descriptor = d.descriptor version.name

/-- What a compilation that succeeds does with the first definition. -/
theorem compileFrom_cons {options : Options} {d : Definition} {rest : List Definition}
    {first : Option Descriptor} {r : Naming.Registry} {models : List TypeModel}
    (h : (compileFrom options first r (d :: rest)).models = .ok models) :
    ∃ version schema, d.select options.version = .ok (version, schema) ∧
      disagreement? first d version = none ∧
      ∃ tail, models = options.finish (lower r schema (d.descriptor version.name)).1 :: tail ∧
        (compileFrom options (some (first.getD (d.descriptor version.name)))
          (lower r schema (d.descriptor version.name)).2 rest).models = .ok tail ∧
        (compileFrom options first r (d :: rest)).registry =
          (compileFrom options (some (first.getD (d.descriptor version.name)))
            (lower r schema (d.descriptor version.name)).2 rest).registry := by
  cases hs : d.select options.version with
  | error error =>
      rw [compileFrom, hs] at h
      cases h
  | ok selected =>
      obtain ⟨version, schema⟩ := selected
      cases hm : disagreement? first d version with
      | some error =>
          rw [compileFrom, hs] at h
          simp only [hm, reduceCtorEq] at h
      | none =>
          rw [compileFrom, hs] at h ⊢
          simp only [hm] at h ⊢
          refine ⟨version, schema, rfl, hm, ?_⟩
          generalize compileFrom options (some (first.getD (d.descriptor version.name)))
            (lower r schema (d.descriptor version.name)).2 rest = run at h ⊢
          cases ht : run.models with
          | error error =>
              rw [ht] at h
              cases h
          | ok tail =>
              rw [ht] at h
              cases h
              exact ⟨tail, rfl, rfl, rfl⟩

/-- Compiling definitions whose names are taken goes through a stage for each of them. -/
theorem compileFrom_stages {options : Options} {definitions : List Definition}
    {first : Option Descriptor} {r : Naming.Registry} {models : List TypeModel}
    (hi : ∀ name ∈ importedNames, name ∈ r.reserved)
    (hd : ∀ d ∈ definitions, d.kind ∈ r.reserved ∧ d.listKind ∈ r.reserved)
    (h : (compileFrom options first r definitions).models = .ok models) :
    ∃ stages, Chain r stages (compileFrom options first r definitions).registry ∧
      List.Forall₂ (Selects options) definitions stages ∧
      models = stages.map fun g => options.finish g.model := by
  induction definitions generalizing first r models with
  | nil =>
      cases h
      exact ⟨[], .nil r, .nil, rfl⟩
  | cons d rest ih =>
      obtain ⟨version, schema, hs, -, tail, rfl, ht, hr⟩ := compileFrom_cons h
      have hown : ∀ name ∈ ownNames (d.descriptor version.name), name ∈ r.reserved := by
        intro name hn
        rcases List.mem_cons.mp hn with rfl | hn
        · exact (hd d List.mem_cons_self).1
        rcases List.mem_cons.mp hn with rfl | hn
        · exact (hd d List.mem_cons_self).2
        · exact hi name hn
      obtain ⟨g, rfl, hgd, hg⟩ := exists_stage schema hown
      rw [← hgd] at ht hr ⊢
      rw [hg.lowered] at ht hr ⊢
      have hgrow : ∀ name ∈ r.reserved, name ∈ g.state.registry.reserved := by
        intro name hn
        rw [hg.grows.reserved]
        exact List.mem_append_right _ hn
      obtain ⟨stages, hc, hsel, rfl⟩ := ih (fun name hn => hgrow name (hi name hn))
        (fun d' hd' => (hd d' (List.mem_cons_of_mem _ hd')).imp (hgrow _) (hgrow _)) ht
      exact ⟨g :: stages, hr ▸ .cons hg hc, .cons ⟨version, hs, hgd⟩ hsel, rfl⟩

/-! ## Accepted batches -/

theorem mem_startRegistry {definitions : List Definition} {name : String} :
    name ∈ (startRegistry definitions).reserved ↔
      name ∈ importedNames ∨ name ∈ typeNames definitions := by
  rw [startRegistry, Naming.Registry.mem_reserveAll, Naming.Registry.mem_reserveAll]
  simp [Naming.Registry.empty]

theorem startRegistry_nodup (definitions : List Definition) :
    (startRegistry definitions).reserved.Nodup :=
  Naming.Registry.reserveAll_nodup _ (Naming.Registry.reserveAll_nodup _ .nil)

theorem startRegistry_names (definitions : List Definition) :
    (startRegistry definitions).names = [] := by
  rw [startRegistry, Naming.Registry.reserveAll_names, Naming.Registry.reserveAll_names]
  rfl

/-- Whether a batch comes of definitions through some stages. -/
structure Accepted (options : Options) (definitions : List Definition) (b : Batch)
    (stages : List Stage) : Prop where
  chain : Chain (startRegistry definitions) stages (run options definitions).registry
  selects : List.Forall₂ (Selects options) definitions stages
  resources : b.resources = stages.map fun g => options.finish g.model
  typeNames_nodup : (typeNames definitions).Nodup

theorem batchOf_resources (models : List TypeModel) : (batchOf models).resources = models := by
  cases models <;> rfl

theorem exists_stages {options : Options} {definitions : List Definition} {b : Batch}
    (h : (compileBatch options definitions).batch = .ok b) :
    ∃ stages, Accepted options definitions b stages := by
  cases hm : (run options definitions).models with
  | error error =>
      rw [compileBatch, hm] at h
      cases h
  | ok models =>
      rw [compileBatch, hm] at h
      cases h
      cases hn : nameConflict? definitions with
      | some error =>
          rw [run, hn] at hm
          cases hm
      | none =>
          have hr : run options definitions =
              compileFrom options none (startRegistry definitions) definitions := by
            rw [run, hn]
          have himp : ∀ name ∈ importedNames, name ∈ (startRegistry definitions).reserved :=
            fun name hi => mem_startRegistry.mpr (.inl hi)
          have hkinds : ∀ d ∈ definitions, d.kind ∈ (startRegistry definitions).reserved ∧
              d.listKind ∈ (startRegistry definitions).reserved := by
            intro d hd
            constructor
            · exact mem_startRegistry.mpr (.inr (List.mem_append_left _ (List.mem_map_of_mem hd)))
            · exact mem_startRegistry.mpr (.inr (List.mem_append_right _ (List.mem_map_of_mem hd)))
          obtain ⟨stages, hc, hs, hmodels⟩ := compileFrom_stages himp hkinds (hr ▸ hm)
          refine ⟨stages, hr ▸ hc, hs, ?_, (nameConflict_eq_none_iff.mp hn).1⟩
          rw [batchOf_resources, hmodels]

end Compilation

/-! ## A sample -/

def sampleEnum : Schema :=
  .mk none (.enum .string none [.str "fast"])

def sampleObject : Schema :=
  .mk none (.object [("mode", sampleEnum)] none false)

/-- Two resources with one object, which the second has below a list. -/
def sampleDefinitions : List Definition :=
  [.single "Widget" "widgets" "shop.io" "v1"
      (.mk none (.object [("spec", sampleObject)] none false)),
    .single "Gadget" "gadgets" "shop.io" "v1"
      (.mk none (.object
        [("spec", .mk none (.array (some sampleObject))), ("status", .mk none .intOrString)]
        none false))]

/-- A success comes with what is computed of it. -/
theorem exists_ok {ε α β : Type} {result : Except ε α} {f : α → β} {y : β}
    (h : result.toOption.map f = some y) : ∃ x, result = .ok x ∧ f x = y := by
  cases result with
  | error error => cases h
  | ok x => exact ⟨x, rfl, Option.some.inj h⟩

/-- A batch comes with what is computed of it. -/
theorem exists_batch {options : Options} {definitions : List Definition} {α : Type}
    {f : Batch → α} {a : α}
    (h : (compileBatch options definitions).batch.toOption.map f = some a) :
    ∃ b, (compileBatch options definitions).batch = .ok b ∧ f b = a :=
  exists_ok h

theorem sampleDefinitions_accepted (optional : Bool) :
    ∃ b, (compileBatch ⟨none, optional⟩ sampleDefinitions).batch = .ok b := by
  have hlength : ∀ optional, (compileBatch ⟨none, optional⟩ sampleDefinitions).batch.toOption.map
      (·.resources.length) = some 2 := by
    decide +kernel
  obtain ⟨b, hb, -⟩ := exists_batch (hlength optional)
  exact ⟨b, hb⟩

end ResourceTypes
