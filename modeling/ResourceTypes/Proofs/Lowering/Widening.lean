import ResourceTypes.Proofs.Lowering.Outcome
import ResourceTypes.Proofs.Naming.Widening

/-! # Lowering with more names taken

Two runs over the same schemas, one with more names taken than the other, make the same types as
long as the run with fewer of them names no shape by one of the others. By induction on the schema,
the two states stay alike but for the names that are taken.
-/

namespace ResourceTypes.Lowering

open Naming (Registry)

/-- States that are alike but for the names that are taken. -/
structure State.Widens (s : State) (extra : List String) (wider : State) : Prop where
  registry : s.registry.Widens extra wider.registry
  structs : wider.structs = s.structs
  enums : wider.enums = s.enums
  refs : wider.refs = s.refs

def Alike {α : Type} (extra : List String) (result wider : α × State) : Prop :=
  wider.1 = result.1 ∧ result.2.Widens extra wider.2

variable {extra : List String} {s wider : State}

theorem State.Widens.alike {α : Type} (h : s.Widens extra wider) (a : α) :
    Alike extra (a, s) (a, wider) :=
  ⟨rfl, h⟩

theorem State.Widens.start {r more : Registry} (h : r.Widens extra more) :
    State.Widens ⟨r, [], [], []⟩ extra ⟨more, [], [], []⟩ :=
  ⟨h, rfl, rfl, rfl⟩

theorem Alike.wrap {result wider : Lowered × State} (h : Alike extra result wider)
    (container : TypeRef → TypeRef) :
    Alike extra (result.1.wrap container, result.2) (wider.1.wrap container, wider.2) :=
  ⟨by rw [h.1], h.2⟩

theorem Alike.addStruct {result wider : List Field × State} (h : Alike extra result wider)
    (lowered : Lowered) (type : List Field → StructType) :
    Alike extra
      (lowered, { result.2 with structs := result.2.structs ++ [type result.1] })
      (lowered, { wider.2 with structs := wider.2.structs ++ [type wider.1] }) :=
  ⟨rfl, h.2.registry, by rw [h.1, h.2.structs], h.2.enums, h.2.refs⟩

theorem Alike.cons {result wider : Lowered × State} {fields others : List Field × State}
    (h : Alike extra result wider) (hr : Alike extra fields others) (field : Lowered → Field) :
    Alike extra (field result.1 :: fields.1, fields.2) (field wider.1 :: others.1, others.2) :=
  ⟨by rw [h.1, hr.1], hr.2⟩

/-- A name that is known in the end is none of those that are avoided. -/
theorem not_mem_extra {r : Registry} {signature : Signature} {name : String}
    (ha : r.Avoids extra) (hn : (signature, name) ∈ r.names) : name ∉ extra :=
  fun hm => ha name hm (List.mem_map_of_mem hn)

theorem lowerEnum_alike (site : Site) (kind : ScalarKind) (format : Option String)
    (literals : List Json) (h : s.Widens extra wider)
    (ha : (lowerEnum site kind format literals s).2.registry.Avoids extra) :
    Alike extra (lowerEnum site kind format literals s)
      (lowerEnum site kind format literals wider) := by
  unfold lowerEnum at ha ⊢
  rcases h.registry.assign_cases (.ofLiterals literals) (site.candidates true) with
    ⟨name, hs, hw⟩ | ⟨name, hs, hw⟩
  · rw [hs, hw]
    exact h.alike _
  · rw [hs] at ha ⊢
    obtain ⟨registry, hw, hregistry⟩ := hw (not_mem_extra ha List.mem_cons_self)
    rw [hw]
    exact ⟨rfl, hregistry, h.structs, by simp [h.enums], h.refs⟩

mutual

theorem lowerSchema_alike (site : Site) : ∀ (schema : Schema) (s wider : State),
    s.Widens extra wider → (lowerSchema site schema s).2.registry.Avoids extra →
      Alike extra (lowerSchema site schema s) (lowerSchema site schema wider)
  | .mk description shape, s, wider, h, ha => by
      rw [lowerSchema] at ha ⊢
      rw [lowerSchema]
      exact lowerShape_alike site description shape s wider h ha

theorem lowerShape_alike (site : Site) (description : Option String) :
    ∀ (shape : Shape) (s wider : State), s.Widens extra wider →
      (lowerShape site description shape s).2.registry.Avoids extra →
        Alike extra (lowerShape site description shape s) (lowerShape site description shape wider)
  | .scalar kind format, s, wider, h, _ => by
      rw [lowerShape, lowerShape]
      exact h.alike _
  | .enum kind format literals, s, wider, h, ha => by
      rw [lowerShape] at ha ⊢
      rw [lowerShape]
      exact lowerEnum_alike site kind format literals h ha
  | .object properties additional preserveUnknown, s, wider, h, ha => by
      by_cases hc : isCondition properties = true
      · rw [lowerShape_condition hc, lowerShape_condition hc]
        exact h.alike _
      by_cases he : properties.isEmpty = true
      · cases additional with
        | none =>
            rw [lowerShape_bare hc he, lowerShape_bare hc he]
            exact h.alike _
        | some schema =>
            rw [lowerShape_mapping hc he] at ha ⊢
            rw [lowerShape_mapping hc he]
            exact (lowerSchema_alike site schema s wider h ha).wrap .mapping
      · rw [lowerShape_struct hc he] at ha ⊢
        rw [lowerShape_struct hc he]
        rcases h.registry.assign_cases (.ofProperties properties)
          (site.candidates !site.parentIsRoot) with ⟨name, hs, hw⟩ | ⟨name, hs, hw⟩
        · rw [hs, hw]
          exact h.alike _
        · rw [hs] at ha ⊢
          let named : State := { s with
            registry := ⟨(.ofProperties properties, name) :: s.registry.names,
              name :: s.registry.reserved⟩ }
          -- the name stands in the registry from before the properties are lowered
          have hkept := (lowerFields_outcome site.kind (site.path ++ [site.key]) false properties
            named).makes.names_subset List.mem_cons_self
          obtain ⟨registry, hw, hregistry⟩ := hw (not_mem_extra ha hkept)
          have hnamed : named.Widens extra { wider with registry := registry } :=
            ⟨hregistry, h.structs, h.enums, h.refs⟩
          rw [hw]
          exact (lowerFields_alike site.kind (site.path ++ [site.key]) false properties _ _ hnamed
            ha).addStruct _ fun fields => ⟨name, _, sortFields fields, _, false⟩
  | .array none, s, wider, h, _ => by
      rw [lowerShape, lowerShape]
      exact h.alike _
  | .array (some schema), s, wider, h, ha => by
      rw [lowerShape] at ha ⊢
      rw [lowerShape]
      exact (lowerSchema_alike site schema s wider h ha).wrap .sequence
  | .ref pointer, s, wider, h, _ => by
      rw [lowerShape, lowerShape]
      exact ⟨rfl, h.registry, h.structs, h.enums, by rw [h.refs]⟩
  | .intOrString, s, wider, h, _ => by
      rw [lowerShape, lowerShape]
      exact h.alike _
  | .untyped, s, wider, h, _ => by
      rw [lowerShape, lowerShape]
      exact h.alike _

theorem lowerFields_alike (kind : String) (path : List String) (parentIsRoot : Bool) :
    ∀ (properties : List (String × Schema)) (s wider : State), s.Widens extra wider →
      (lowerFields kind path parentIsRoot properties s).2.registry.Avoids extra →
        Alike extra (lowerFields kind path parentIsRoot properties s)
          (lowerFields kind path parentIsRoot properties wider)
  | [], s, wider, h, _ => by
      rw [lowerFields, lowerFields]
      exact h.alike _
  | (key, schema) :: rest, s, wider, h, ha => by
      rw [lowerFields] at ha ⊢
      rw [lowerFields]
      let site : Site := ⟨kind, path, key, Naming.camelCase key, parentIsRoot⟩
      have hlater := (lowerFields_outcome kind path parentIsRoot rest
        (lowerSchema site schema s).2).makes.names_subset
      have hfirst := lowerSchema_alike site schema s wider h (ha.subset hlater)
      have hrest := lowerFields_alike kind path parentIsRoot rest _ _ hfirst.2 ha
      exact hfirst.cons hrest fun lowered =>
        ⟨Naming.camelCase key, key, lowered.type, schema.description, lowered.enumRef⟩

end

/-! ## Resources -/

/-- The same model comes of a resource, whichever of the names are taken. -/
theorem lower_widens {r wider : Registry} (h : r.Widens extra wider) (schema : Schema)
    (d : Descriptor) (ha : (lower r schema d).2.Avoids extra) :
    (lower wider schema d).1 = (lower r schema d).1 ∧
      (lower r schema d).2.Widens extra (lower wider schema d).2 := by
  have hstart := State.Widens.start (h.reserveAll (ownNames d))
  unfold lower at ha ⊢
  obtain ⟨hvalue, hregistry, hstructs, henums, hrefs⟩ :=
    lowerFields_alike d.kind [d.kind] true ((rootProperties? schema).getD []) _ _ hstart ha
  exact ⟨by simp only [hvalue, hstructs, henums, hrefs], hregistry⟩

end ResourceTypes.Lowering
