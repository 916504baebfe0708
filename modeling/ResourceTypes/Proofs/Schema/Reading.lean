import ResourceTypes.Proofs.Schema.WellFormed
import ResourceTypes.Proofs.Value.Reading
import ResourceTypes.Schema.Reading

/-! # Schemas that are read are well-formed

A key of properties that comes again replaces the schema, so keys are distinct when a schema object
has been read. Sorting them, and bringing the literals into their canonical form, yields a
well-formed schema.
-/

namespace ResourceTypes

namespace SchemaFields

mutual

/-- Whether all properties have distinct keys, and all objects among literals. -/
def UniqueKeys : SchemaFields → Prop
  | ⟨_, _, _, properties, items, literals, _, additional, _, _⟩ =>
    (properties.map (·.1)).Nodup ∧ UniqueKeysProperties properties ∧ UniqueKeysItems items ∧
      (∀ v ∈ literals, v.UniqueKeys) ∧ UniqueKeysAdditional additional

def UniqueKeysProperties : List (String × SchemaFields) → Prop
  | [] => True
  | (_, fields) :: rest => UniqueKeys fields ∧ UniqueKeysProperties rest

def UniqueKeysItems : Option SchemaFields → Prop
  | none => True
  | some fields => UniqueKeys fields

def UniqueKeysAdditional : Option (Bool ⊕ SchemaFields) → Prop
  | some (.inr fields) => UniqueKeys fields
  | some (.inl _) => True
  | none => True

end

theorem uniqueKeysProperties_iff {properties : List (String × SchemaFields)} :
    UniqueKeysProperties properties ↔ ∀ p ∈ properties, p.2.UniqueKeys := by
  induction properties with
  | nil => simp [UniqueKeysProperties]
  | cons p properties ih => simp [UniqueKeysProperties, ih]

theorem keys_propertySchemas (properties : List (String × SchemaFields)) :
    (propertySchemas properties).map (·.1) = properties.map (·.1) := by
  induction properties with
  | nil => rfl
  | cons p properties ih => rw [propertySchemas, List.map_cons, List.map_cons, ih]

theorem wellFormed_enum {kind : ScalarKind} {format : Option String} {literals : List Json}
    (h : ∀ v ∈ literals, v.UniqueKeys) :
    (Shape.enum kind format (literals.map Json.canonical)).WellFormed := by
  intro w hw
  obtain ⟨v, hv, rfl⟩ := List.mem_map.mp hw
  exact Json.uniqueKeys_canonical (h v hv)

/-! ## The schema of fields -/

mutual

theorem toSchema_wellFormed :
    ∀ {fields : SchemaFields}, fields.UniqueKeys → fields.toSchema.WellFormed
  | ⟨type, format, description, properties, items, literals, ref, additional, preserveUnknown,
      intOrString⟩, h => by
      obtain ⟨hd, hp, hi, hl, ha⟩ := h
      rw [toSchema.eq_def, Schema.WellFormed]
      split
      next =>
        have hd' : ((propertySchemas properties).map (·.1)).Nodup := by
          rw [keys_propertySchemas]
          exact hd
        refine ⟨Keyed.sorted_sort hd', ?_, additionalSchema_wellFormed ha⟩
        rw [Schema.propertiesWellFormed_iff]
        intro p hm
        exact Schema.propertiesWellFormed_iff.mp (propertySchemas_wellFormed hp) p
          ((Keyed.sort_perm _).mem_iff.mp hm)
      next => exact itemSchema_wellFormed hi
      next =>
        split
        · trivial
        · exact wellFormed_enum hl
      next =>
        split
        · trivial
        · split
          · trivial
          · split
            · trivial
            · exact wellFormed_enum hl

theorem propertySchemas_wellFormed :
    ∀ {properties : List (String × SchemaFields)}, UniqueKeysProperties properties →
      Schema.PropertiesWellFormed (propertySchemas properties)
  | [], _ => trivial
  | (_, _) :: _, h => ⟨toSchema_wellFormed h.1, propertySchemas_wellFormed h.2⟩

theorem itemSchema_wellFormed :
    ∀ {items : Option SchemaFields}, UniqueKeysItems items →
      Schema.OptionWellFormed (itemSchema items)
  | none, _ => trivial
  | some _, h => toSchema_wellFormed h

theorem additionalSchema_wellFormed :
    ∀ {additional : Option (Bool ⊕ SchemaFields)}, UniqueKeysAdditional additional →
      Schema.OptionWellFormed (additionalSchema additional)
  | some (.inr _), h => toSchema_wellFormed h
  | some (.inl _), _ => trivial
  | none, _ => trivial

end

theorem empty_uniqueKeys : SchemaFields.empty.UniqueKeys :=
  ⟨.nil, trivial, trivial, by simp, trivial⟩

/-! ## Fields that are read -/

theorem readAdditional_uniqueKeys {schema : Unit → ReadResult SchemaFields}
    (h : (schema ()).Ensures UniqueKeys) (v : Value) :
    (readAdditional schema v).Ensures fun found => UniqueKeysAdditional (some found) := by
  unfold readAdditional
  split
  next => exact .error _
  next => exact .ok trivial
  next =>
    split
    next fields hf => exact .ok (h fields hf)
    next => exact .error _

/-- Setting a field keeps the keys distinct if the readings of its value do. -/
theorem set_uniqueKeys (r : Reading) {draft : SchemaFields} (hd : draft.UniqueKeys)
    (name : String) (v : Value) {schema choice : Unit → ReadResult SchemaFields}
    {properties : Unit → ReadResult (List (String × SchemaFields))}
    (hs : ∀ u, (schema u).Ensures UniqueKeys) (hc : ∀ u, (choice u).Ensures UniqueKeys)
    (hp : ∀ u, (properties u).Ensures fun ps =>
      (ps.map (·.1)).Nodup ∧ UniqueKeysProperties ps) :
    (set r draft name v schema choice properties).Ensures UniqueKeys := by
  cases draft
  obtain ⟨hkeys, hprops, hitems, hliterals, hadditional⟩ := hd
  unfold set
  split
  · exact .bind (.trivial _) fun _ _ => .ok ⟨hkeys, hprops, hitems, hliterals, hadditional⟩
  · exact .bind (.trivial _) fun _ _ => .ok ⟨hkeys, hprops, hitems, hliterals, hadditional⟩
  · exact .bind (.trivial _) fun _ _ => .ok ⟨hkeys, hprops, hitems, hliterals, hadditional⟩
  · exact .bind (hp ()) fun _ h => .ok ⟨h.1, h.2, hitems, hliterals, hadditional⟩
  · refine .bind (.optional (hs ())) fun found h => .ok ⟨hkeys, hprops, ?_, hliterals, hadditional⟩
    cases found with
    | none => trivial
    | some fields => exact h fields rfl
  · exact .bind (.sequence fun v => r.anyJson_uniqueKeys v) fun _ h =>
      .ok ⟨hkeys, hprops, hitems, h, hadditional⟩
  · exact .bind (.trivial _) fun _ _ => .ok ⟨hkeys, hprops, hitems, hliterals, hadditional⟩
  · refine .bind (.optional (readAdditional_uniqueKeys (hc ()) v)) fun found h =>
      .ok ⟨hkeys, hprops, hitems, hliterals, ?_⟩
    cases found with
    | none => trivial
    | some additional => exact h additional rfl
  · exact .bind (.trivial _) fun _ _ => .ok ⟨hkeys, hprops, hitems, hliterals, hadditional⟩
  · exact .bind (.trivial _) fun _ _ => .ok ⟨hkeys, hprops, hitems, hliterals, hadditional⟩
  · exact .ok ⟨hkeys, hprops, hitems, hliterals, hadditional⟩

end SchemaFields

/-! ## Schema objects that are read -/

mutual

theorem Reading.schema_uniqueKeys :
    ∀ (v : Value) (r : Reading), (Reading.schema r v).Ensures SchemaFields.UniqueKeys
  | .map entries, r => by
      rw [Reading.schema]
      exact Reading.schemaEntries_uniqueKeys entries r [] .empty SchemaFields.empty_uniqueKeys
  | .seq items, r => by
      rw [Reading.schema]
      split
      · exact Reading.schemaItems_uniqueKeys items r _ _ .empty SchemaFields.empty_uniqueKeys
      · exact .error _
  | .null, r => by
      rw [Reading.schema]
      split
      · exact .ok SchemaFields.empty_uniqueKeys
      · exact .error _
  | .tagged _ v, r => by
      rw [Reading.schema]
      exact Reading.schema_uniqueKeys v r
  | .bool _, _ => .error _
  | .int _, _ => .error _
  | .real _, _ => .error _
  | .str _, _ => .error _

theorem Reading.schemaEntries_uniqueKeys :
    ∀ (entries : List (Value × Value)) (r : Reading) (seen : List String) (draft : SchemaFields),
      draft.UniqueKeys →
        (Reading.schemaEntries r seen draft entries).Ensures SchemaFields.UniqueKeys
  | [], _, _, _, h => .ok h
  | (k, v) :: rest, r, seen, draft, h => by
      rw [Reading.schemaEntries]
      refine .bind (.trivial _) fun found _ => ?_
      cases found with
      | none => exact Reading.schemaEntries_uniqueKeys rest r seen draft h
      | some name =>
          by_cases hs : name ∈ seen
          · simp only [hs, if_true]
            exact .error _
          · simp only [hs, if_false]
            have hset := SchemaFields.set_uniqueKeys r h name v
              (fun _ => Reading.schema_uniqueKeys v r)
              (fun _ => Reading.schema_uniqueKeys v .choice)
              (fun _ => Reading.properties_uniqueKeys v r)
            exact .bind (hset.within _) fun draft hd =>
              Reading.schemaEntries_uniqueKeys rest r (name :: seen) draft hd

theorem Reading.schemaItems_uniqueKeys :
    ∀ (items : List Value) (r : Reading) (length : Nat) (names : List String)
      (draft : SchemaFields), draft.UniqueKeys →
        (Reading.schemaItems r length names draft items).Ensures SchemaFields.UniqueKeys
  | [], r, length, names, draft, h => by
      rw [Reading.schemaItems]
      split
      · exact .error _
      · exact .ok h
  | v :: rest, r, length, [], draft, h => .error _
  | v :: rest, r, length, name :: names, draft, h => by
      rw [Reading.schemaItems]
      have hset := SchemaFields.set_uniqueKeys r h name v
        (fun _ => Reading.schema_uniqueKeys v r)
        (fun _ => Reading.schema_uniqueKeys v .choice)
        (fun _ => Reading.properties_uniqueKeys v r)
      exact .bind hset fun draft hd =>
        Reading.schemaItems_uniqueKeys rest r length names draft hd

theorem Reading.properties_uniqueKeys :
    ∀ (v : Value) (r : Reading), (Reading.properties r v).Ensures fun ps =>
      (ps.map (·.1)).Nodup ∧ SchemaFields.UniqueKeysProperties ps
  | .map entries, r => by
      rw [Reading.properties]
      exact Reading.propertyEntries_uniqueKeys entries r [] ⟨.nil, trivial⟩
  | .null, r => by
      rw [Reading.properties]
      split
      · exact .ok ⟨.nil, trivial⟩
      · exact .error _
  | .tagged _ v, r => by
      rw [Reading.properties]
      exact Reading.properties_uniqueKeys v r
  | .seq _, _ => .error _
  | .bool _, _ => .error _
  | .int _, _ => .error _
  | .real _, _ => .error _
  | .str _, _ => .error _

theorem Reading.propertyEntries_uniqueKeys :
    ∀ (entries : List (Value × Value)) (r : Reading) (properties : List (String × SchemaFields)),
      ((properties.map (·.1)).Nodup ∧ SchemaFields.UniqueKeysProperties properties) →
        (Reading.propertyEntries r properties entries).Ensures fun ps =>
          (ps.map (·.1)).Nodup ∧ SchemaFields.UniqueKeysProperties ps
  | [], _, _, h => .ok h
  | (k, v) :: rest, r, properties, h => by
      rw [Reading.propertyEntries]
      refine .bind (.trivial _) fun key _ => ?_
      refine .bind ((Reading.schema_uniqueKeys v r).within _) fun fields hf => ?_
      refine Reading.propertyEntries_uniqueKeys rest r _ ⟨Keyed.set_nodup h.1 key fields, ?_⟩
      rw [SchemaFields.uniqueKeysProperties_iff]
      intro p hp
      rcases Keyed.mem_set hp with rfl | hp
      · exact hf
      · exact SchemaFields.uniqueKeysProperties_iff.mp h.2 p hp

end

theorem Schema.ofJson_wellFormed (v : Json) : (Schema.ofJson v).Ensures Schema.WellFormed := by
  unfold Schema.ofJson
  exact .bind (Reading.schema_uniqueKeys _ .json) fun _ h =>
    .ok (SchemaFields.toSchema_wellFormed h)

end ResourceTypes
