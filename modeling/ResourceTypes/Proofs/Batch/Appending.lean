import ResourceTypes.Proofs.Batch.Names
import ResourceTypes.Proofs.Lowering.Widening

/-! # One more resource

A definition at the end of a batch has its kind and its list kind taken before anything is named.
The earlier resources are lowered as before nonetheless, because a name that they did not use is not
missing to them.
-/

namespace ResourceTypes

namespace Lowering

open Naming (Registry)

def Stage.SameInput (g other : Stage) : Prop :=
  other.schema = g.schema ∧ other.descriptor = g.descriptor

/-- Stages over the same resources have the same models, if those of the one chain name no shape by
a name that only the other one has taken from the start. -/
theorem Chain.models_eq_of_widens {extra : List String} {r wider last last' : Registry}
    {stages others more : List Stage} (hc : Chain r stages last)
    (hw : Chain wider (others ++ more) last') (hs : List.Forall₂ Stage.SameInput stages others)
    (hr : r.Widens extra wider) (ha : last.Avoids extra) :
    others.map (·.model) = stages.map (·.model) := by
  induction hs generalizing r wider with
  | nil => rfl
  | @cons g other rest others hsame hrest ih =>
      obtain ⟨hschema, hdescriptor⟩ := hsame
      cases hc with
      | cons hg hc =>
        cases hw with
        | cons ho hw =>
          have hkept : g.state.registry.names ⊆ last.names :=
            fun entry he => hc.mem_names.mpr (.inr he)
          have hlowered :
              lower wider g.schema g.descriptor = (other.model, other.state.registry) := by
            rw [← hschema, ← hdescriptor, ho.lowered]
          have hlower := lower_widens hr g.schema g.descriptor
          rw [hlowered, hg.lowered] at hlower
          obtain ⟨hmodel, hregistry⟩ : other.model = g.model ∧ _ := hlower (ha.subset hkept)
          rw [List.map_cons, List.map_cons, hmodel, ih hc hw hregistry]

end Lowering

namespace Compilation

open Lowering

variable {options : Options} {definitions : List Definition} {d : Definition} {b : Batch}
  {stages others : List Stage}

theorem Selects.sameInput {g other : Stage} (h : Selects options d g)
    (ho : Selects options d other) : g.SameInput other := by
  obtain ⟨version, hs, hd⟩ := h
  obtain ⟨version', hs', hd'⟩ := ho
  obtain ⟨rfl, hschema⟩ := Prod.mk.inj (Except.ok.inj (hs.symm.trans hs'))
  exact ⟨hschema.symm, hd'.trans hd.symm⟩

theorem Selects.sameInputs (h : List.Forall₂ (Selects options) definitions stages)
    (ho : List.Forall₂ (Selects options) definitions others) :
    List.Forall₂ Stage.SameInput stages others := by
  induction h generalizing others with
  | nil =>
      cases ho
      exact .nil
  | cons hsel _ ih =>
      cases ho with
      | cons hsel' ho => exact .cons (hsel.sameInput hsel') (ih ho)

theorem startRegistry_widens (definitions : List Definition) (d : Definition) :
    (startRegistry definitions).Widens [d.kind, d.listKind]
      (startRegistry (definitions ++ [d])) where
  names := by rw [startRegistry_names, startRegistry_names]
  reserved := by
    intro name
    rw [mem_startRegistry, mem_startRegistry]
    simp only [typeNames, List.map_append, List.map_cons, List.map_nil, List.mem_append,
      List.mem_cons, List.not_mem_nil, or_false]
    tauto

/-- The shapes of a batch have the names of its nested types. -/
theorem Accepted.names_perm (h : Accepted options definitions b stages) :
    ((run options definitions).registry.names.map (·.2)).Perm
      (b.resources.flatMap TypeModel.nestedNames) := by
  have hp := h.chain.names_perm
  rw [startRegistry_names, List.map_nil, List.append_nil] at hp
  exact hp.trans h.nestedNames_perm.symm

theorem Accepted.avoids (h : Accepted options definitions b stages) {extra : List String}
    (hn : ∀ m ∈ b.resources, ∀ name ∈ extra, name ∉ m.nestedNames) :
    (run options definitions).registry.Avoids extra := by
  intro name he hname
  obtain ⟨m, hm, hnested⟩ := List.mem_flatMap.mp (h.names_perm.mem_iff.mp hname)
  exact hn m hm name he hnested

end Compilation

open Compilation

/-- One more resource leaves the models of the others as they are, unless its kind or its list kind
is the name of one of their nested types. -/
theorem models_of_append {options : Options} {definitions : List Definition} {d : Definition}
    {b b' : Batch} (h : (compileBatch options definitions).batch = .ok b)
    (h' : (compileBatch options (definitions ++ [d])).batch = .ok b')
    (hn : ∀ m ∈ b.resources, d.kind ∉ m.nestedNames ∧ d.listKind ∉ m.nestedNames) :
    b'.resources.take definitions.length = b.resources := by
  obtain ⟨stages, ha⟩ := exists_stages h
  obtain ⟨stages', ha'⟩ := exists_stages h'
  let others := stages'.take definitions.length
  have hsplit : stages' = others ++ stages'.drop definitions.length :=
    (List.take_append_drop _ _).symm
  have hselects : List.Forall₂ (Selects options) definitions others := by
    have ht := List.forall₂_take definitions.length ha'.selects
    rwa [List.take_left] at ht
  have havoids : (run options definitions).registry.Avoids [d.kind, d.listKind] := by
    apply ha.avoids
    simpa using hn
  have hmodels := ha.chain.models_eq_of_widens (hsplit ▸ ha'.chain)
    (Selects.sameInputs ha.selects hselects) (startRegistry_widens definitions d) havoids
  calc b'.resources.take definitions.length
      = (others.map (·.model)).map options.finish := by
        rw [ha'.resources, ← List.map_take, List.map_map]
        rfl
    _ = b.resources := by
        rw [hmodels, ha.resources, List.map_map]
        rfl

def sampleAddition : Definition :=
  .single "Gizmo" "gizmos" "shop.io" "v1"
    (.mk none (.object
      [("spec", .mk none (.object [("item", sampleObject)] none false)), ("status", sampleObject)]
      none false))

theorem models_of_sampleAddition :
    ∃ b b', (compileBatch ⟨none, true⟩ sampleDefinitions).batch = .ok b ∧
      (compileBatch ⟨none, true⟩ (sampleDefinitions ++ [sampleAddition])).batch = .ok b' ∧
      (∀ m ∈ b.resources,
        sampleAddition.kind ∉ m.nestedNames ∧ sampleAddition.listKind ∉ m.nestedNames) ∧
      b'.resources.take 2 = b.resources := by
  have hnames : (compileBatch ⟨none, true⟩ sampleDefinitions).batch.toOption.map
      (·.resources.map TypeModel.nestedNames) = some [["WidgetSpec", "Mode"], []] := by
    decide +kernel
  have hlength :
      (compileBatch ⟨none, true⟩ (sampleDefinitions ++ [sampleAddition])).batch.toOption.map
        (·.resources.length) = some 3 := by
    decide +kernel
  obtain ⟨b, hb, hnested⟩ := exists_batch hnames
  obtain ⟨b', hb', -⟩ := exists_batch hlength
  have hn : ∀ m ∈ b.resources,
      sampleAddition.kind ∉ m.nestedNames ∧ sampleAddition.listKind ∉ m.nestedNames := by
    intro m hm
    have hmem := List.mem_map_of_mem (f := TypeModel.nestedNames) hm
    rw [hnested] at hmem
    rcases List.mem_pair.mp hmem with hm | hm <;> rw [hm] <;> decide
  exact ⟨b, b', hb, hb', hn, models_of_append hb hb' hn⟩

end ResourceTypes
