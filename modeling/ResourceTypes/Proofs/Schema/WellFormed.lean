import ResourceTypes.Definition.Basic
import ResourceTypes.Proofs.Json.Canonical

/-! # Well-formed schemas

Properties are a map that is listed in the order of its keys, and the objects among literals are
maps as well. Both hold at every depth of a well-formed schema.
-/

namespace ResourceTypes

mutual

def Schema.WellFormed : Schema → Prop
  | .mk _ shape => Shape.WellFormed shape

def Shape.WellFormed : Shape → Prop
  | .enum _ _ literals => ∀ v ∈ literals, v.UniqueKeys
  | .object properties additional _ =>
    Keyed.Sorted properties ∧ Schema.PropertiesWellFormed properties ∧
      Schema.OptionWellFormed additional
  | .array items => Schema.OptionWellFormed items
  | _ => True

def Schema.PropertiesWellFormed : List (String × Schema) → Prop
  | [] => True
  | (_, s) :: rest => Schema.WellFormed s ∧ Schema.PropertiesWellFormed rest

def Schema.OptionWellFormed : Option Schema → Prop
  | none => True
  | some s => Schema.WellFormed s

end

theorem Schema.propertiesWellFormed_iff {properties : List (String × Schema)} :
    Schema.PropertiesWellFormed properties ↔ ∀ p ∈ properties, p.2.WellFormed := by
  induction properties with
  | nil => simp [Schema.PropertiesWellFormed]
  | cons p properties ih => simp [Schema.PropertiesWellFormed, ih]

def Version.WellFormed (version : Version) : Prop :=
  ∀ schema ∈ version.schema, schema.WellFormed

def Definition.WellFormed (d : Definition) : Prop :=
  ∀ version ∈ d.versions, version.WellFormed

theorem Definition.WellFormed.single {kind plural group version : String} {schema : Schema}
    (h : schema.WellFormed) : (Definition.single kind plural group version schema).WellFormed := by
  intro v hv s hs
  rw [List.mem_singleton.mp hv] at hs
  exact Option.some.inj hs ▸ h

theorem Definition.WellFormed.of_select {d : Definition} (hd : d.WellFormed)
    {desired : Option String} {version : Version} {schema : Schema}
    (h : d.select desired = .ok (version, schema)) : schema.WellFormed := by
  unfold Definition.select at h
  split at h
  next => cases h
  next v hv =>
    split at h
    next => cases h
    next s hs =>
      cases h
      exact hd version (List.mem_of_find?_eq_some hv) schema hs

end ResourceTypes
