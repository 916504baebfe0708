import Mathlib.Data.List.Perm.Subperm
import ResourceTypes.Proofs.Lowering.Outcome

/-! # What becomes a condition

An object becomes the shared condition type just when its properties look like a condition. Seen one
by one, they then have the types of the fields of a condition, except that a text may have a format
for which there is a type of its own.
-/

namespace ResourceTypes

open Lowering

namespace Schema

/-- The type of a schema by its kind and format, whatever values it is limited to. -/
def plainType? (s : Schema) : Option TypeRef :=
  s.scalar?.map fun found => scalarType found.1 found.2

def IsString (s : Schema) : Prop :=
  ∃ format, s.scalar? = some (.string, format)

end Schema

/-- Whether properties are those of a condition: five strings, and no other than the six keys. -/
structure ConditionShape (properties : List (String × Schema)) : Prop where
  keys : ∀ property ∈ properties, property.1 ∈ conditionKeys
  texts : ∀ key ∈ ["type", "reason", "message"], ∃ s, properties.lookup key = some s ∧ s.IsString
  time : ∃ s, properties.lookup "lastTransitionTime" = some s ∧
    s.scalar? = some (.string, some "date-time")
  status : ∃ s, properties.lookup "status" = some s ∧ s.IsString ∧
    s.literals.Perm (conditionStatus.map Json.str)

section Recognition

variable {properties : List (String × Schema)}

theorem isStringProperty_none_iff {key : String} :
    isStringProperty properties key none = true ↔
      ∃ s, properties.lookup key = some s ∧ s.IsString := by
  unfold isStringProperty Schema.IsString
  cases hl : properties.lookup key with
  | none => simp
  | some s =>
      cases hs : s.scalar? with
      | none => simp [hs]
      | some found =>
          obtain ⟨kind, format⟩ := found
          cases kind <;> simp [hs]

theorem isStringProperty_some_iff {key format : String} :
    isStringProperty properties key (some format) = true ↔
      ∃ s, properties.lookup key = some s ∧ s.scalar? = some (.string, some format) := by
  unfold isStringProperty
  cases hl : properties.lookup key with
  | none => simp
  | some s =>
      cases hs : s.scalar? with
      | none => simp [hs]
      | some found =>
          obtain ⟨kind, format⟩ := found
          cases kind <;> simp [hs]

theorem str_eq_some_iff {v : Json} {text : String} : v.str? = some text ↔ v = .str text := by
  cases v <;> simp [Json.str?]

/-- As many values as there are states, every state among them: these are the states. -/
theorem perm_states_iff {literals : List Json} :
    literals.Perm (conditionStatus.map Json.str) ↔
      literals.length = conditionStatus.length ∧
        ∀ state ∈ conditionStatus, .str state ∈ literals := by
  constructor
  · intro h
    refine ⟨by rw [h.length_eq, List.length_map], fun state hs => ?_⟩
    exact h.mem_iff.mpr (List.mem_map_of_mem hs)
  · rintro ⟨hlength, hstates⟩
    have hnodup : (conditionStatus.map Json.str).Nodup :=
      List.Nodup.map (fun _ _ => Json.str.inj) (by decide)
    have hsubset : conditionStatus.map Json.str ⊆ literals := by
      intro v hv
      obtain ⟨state, hs, rfl⟩ := List.mem_map.mp hv
      exact hstates state hs
    have hle : literals.length ≤ (conditionStatus.map Json.str).length := by
      rw [List.length_map, hlength]
    exact ((List.subperm_of_subset hnodup hsubset).perm_of_length_le hle).symm

theorem isStatusProperty_iff :
    isStatusProperty properties = true ↔ ∃ s, properties.lookup "status" = some s ∧
      s.literals.Perm (conditionStatus.map Json.str) := by
  unfold isStatusProperty
  cases hl : properties.lookup "status" with
  | none => simp
  | some s => simp [perm_states_iff, str_eq_some_iff]

theorem isCondition_iff : isCondition properties = true ↔ ConditionShape properties := by
  simp only [isCondition, Bool.and_eq_true, isStringProperty_none_iff, isStringProperty_some_iff,
    isStatusProperty_iff, List.all_eq_true, decide_eq_true_eq]
  constructor
  · rintro ⟨⟨⟨⟨⟨⟨htype, s, hs, hstring⟩, hreason⟩, hmessage⟩, htime⟩, s', hs', hstates⟩, hkeys⟩
    cases hs.symm.trans hs'
    refine ⟨hkeys, ?_, htime, s, hs, hstring, hstates⟩
    simpa using ⟨htype, hreason, hmessage⟩
  · rintro ⟨hkeys, htexts, htime, s, hs, hstring, hstates⟩
    obtain ⟨htype, hreason, hmessage⟩ := by simpa using htexts
    exact ⟨⟨⟨⟨⟨⟨htype, s, hs, hstring⟩, hreason⟩, hmessage⟩, htime⟩, s, hs, hstates⟩, hkeys⟩

end Recognition

/-! ## Lowering to a condition -/

theorem bareObjectType_ne_condition (key : String) (preserveUnknown : Bool) :
    bareObjectType key preserveUnknown ≠ .external .condition := by
  unfold bareObjectType
  split
  · decide
  · split <;> decide

/-- No other object becomes a condition. -/
theorem lower_object_eq_condition_iff {site : Site} {state : State} {description : Option String}
    {properties : List (String × Schema)} {additional : Option Schema} {preserveUnknown : Bool} :
    (lowerSchema site (.mk description (.object properties additional preserveUnknown))
      state).1.type = .external .condition ↔ isCondition properties = true := by
  rw [lowerSchema]
  by_cases hc : isCondition properties = true
  · rw [lowerShape_condition hc]
    exact iff_of_true rfl hc
  refine iff_of_false ?_ hc
  by_cases he : properties.isEmpty = true
  · cases additional with
    | none =>
        rw [lowerShape_bare hc he]
        exact bareObjectType_ne_condition site.key preserveUnknown
    | some schema =>
        rw [lowerShape_mapping hc he]
        simp [Lowered.wrap]
  · rw [lowerShape_struct hc he]
    dsimp only
    split <;> simp [Lowered.plain]

/-! ## The properties on their own -/

/-- Strings with a date or with bytes have types of their own, all others are texts. -/
def stringType (format : Option String) : TypeRef :=
  if format = some "date-time" then .external .time
  else if format ∈ [some "byte", some "binary"] then .external .byteString
  else .str

theorem scalarType_string (format : Option String) :
    scalarType .string format = stringType format := by
  unfold scalarType stringType
  split <;> simp_all

theorem plainType_of_string {s : Schema} {format : Option String}
    (h : s.scalar? = some (.string, format)) : s.plainType? = some (stringType format) := by
  rw [Schema.plainType?, h, Option.map_some, scalarType_string]

/-- An object that becomes a condition has the keys of one, five of them in any case. Its texts are
strings, which on their own have the type of their format. The transition is a time, and the status
is a string that is limited to three values. -/
theorem condition_properties {site : Site} {state : State} {node : Schema}
    {properties : List (String × Schema)} {additional : Option Schema} {preserveUnknown : Bool}
    (hnode : node.shape = .object properties additional preserveUnknown)
    (h : (lowerSchema site node state).1.type = .external .condition) :
    (∀ key ∈ properties.map (·.1), key ∈
      ["type", "status", "reason", "message", "lastTransitionTime", "observedGeneration"]) ∧
    (∀ key ∈ ["type", "reason", "message"], ∃ s format, properties.lookup key = some s ∧
      s.scalar? = some (.string, format) ∧ s.plainType? = some (stringType format)) ∧
    (∃ s, properties.lookup "lastTransitionTime" = some s ∧
      s.plainType? = some (.external .time)) ∧
    ∃ s format, properties.lookup "status" = some s ∧ s.scalar? = some (.string, format) ∧
      ∀ v, v ∈ s.literals ↔ v = .str "True" ∨ v = .str "False" ∨ v = .str "Unknown" := by
  obtain ⟨description, shape⟩ := node
  obtain rfl : shape = .object properties additional preserveUnknown := hnode
  have hshape := isCondition_iff.mp (lower_object_eq_condition_iff.mp h)
  refine ⟨?_, ?_, ?_, ?_⟩
  · exact List.forall_mem_map.mpr hshape.keys
  · intro key hkey
    obtain ⟨s, hs, format, hformat⟩ := hshape.texts key hkey
    exact ⟨s, format, hs, hformat, plainType_of_string hformat⟩
  · obtain ⟨s, hs, hformat⟩ := hshape.time
    exact ⟨s, hs, plainType_of_string hformat⟩
  · obtain ⟨s, hs, ⟨format, hformat⟩, hstates⟩ := hshape.status
    refine ⟨s, format, hs, hformat, fun v => ?_⟩
    rw [hstates.mem_iff]
    simp [conditionStatus]

def conditionLike (type observedGeneration : Shape) : List (String × Schema) :=
  [("lastTransitionTime", .mk none (.scalar .string (some "date-time"))),
    ("message", .mk none (.scalar .string none)),
    ("observedGeneration", .mk none observedGeneration),
    ("reason", .mk none (.scalar .string (some "uri"))),
    ("status", .mk none (.enum .string none [.str "True", .str "False", .str "Unknown"])),
    ("type", .mk none type)]

def statusType (properties : List (String × Schema)) : TypeRef :=
  (lowerSchema ⟨"Widget", ["Widget", "status"], "conditions", "Conditions", false⟩
    (.mk none (.object properties none false)) ⟨.empty, [], [], []⟩).1.type

/-- The customary condition, with a reason that is a link. -/
theorem customary_properties :
    let properties := conditionLike (.scalar .string none) (.scalar .integer (some "int64"))
    statusType properties = .external .condition ∧
      ∃ s format, properties.lookup "reason" = some s ∧ s.scalar? = some (.string, format) ∧
        s.plainType? = some (stringType format) := by
  have hlowered : statusType
      (conditionLike (.scalar .string none) (.scalar .integer (some "int64"))) =
        .external .condition := by
    decide
  exact ⟨hlowered, (condition_properties rfl hlowered).2.1 "reason" (by decide)⟩

/-- A type in bytes and an observed generation that is a string are passed over. -/
theorem unusual_properties :
    let properties := conditionLike (.scalar .string (some "byte")) (.scalar .string none)
    statusType properties = .external .condition ∧
      (properties.lookup "type").bind Schema.plainType? = some (.external .byteString) ∧
      (properties.lookup "observedGeneration").bind Schema.plainType? = some .str := by
  decide

end ResourceTypes
