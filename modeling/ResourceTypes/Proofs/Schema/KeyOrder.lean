import ResourceTypes.Proofs.Schema.Reading
import ResourceTypes.Proofs.Value.KeyOrder

/-! # Schemas read from values in which keys are reordered

Properties are sorted and literals are brought into their canonical form, so the order of keys
leaves no trace in a schema. Values that are the same up to this order are read alike at every
depth: each field of a schema object is set alike, and no field looks at another one.
-/

namespace ResourceTypes

open ReadResult

namespace SchemaFields

/-! ## What a schema takes over -/

/-- What the schema of some fields depends on. -/
structure Outline where
  type : Option String
  format : Option String
  description : Option String
  properties : List (String × Schema)
  items : Option Schema
  literals : List Json
  ref : Option String
  additional : Option Schema
  preserveUnknown : Bool
  intOrString : Bool

def outline (fields : SchemaFields) : Outline where
  type := fields.type
  format := fields.format
  description := fields.description
  properties := Keyed.sort (propertySchemas fields.properties)
  items := itemSchema fields.items
  literals := fields.literals.map Json.canonical
  ref := fields.ref
  additional := additionalSchema fields.additional
  preserveUnknown := fields.preserveUnknown
  intOrString := fields.intOrString

def Alike (fields others : SchemaFields) : Prop :=
  fields.outline = others.outline

theorem Alike.toSchema_eq {fields others : SchemaFields} (h : Alike fields others) :
    fields.toSchema = others.toSchema := by
  cases fields
  cases others
  simp only [Alike, outline, Outline.mk.injEq] at h
  obtain ⟨rfl, rfl, rfl, hp, hi, hl, rfl, ha, rfl, rfl⟩ := h
  rw [toSchema.eq_def, toSchema.eq_def]
  simp only [hp, hi, hl, ha]

theorem propertySchemas_eq_map (properties : List (String × SchemaFields)) :
    propertySchemas properties = properties.map fun p => (p.1, p.2.toSchema) := by
  induction properties with
  | nil => rfl
  | cons p properties ih => rw [propertySchemas, List.map_cons, ih]

/-- Whether two readings of properties come to the same once they are sorted. -/
def AlikeProperties (properties others : List (String × SchemaFields)) : Prop :=
  Keyed.sort (propertySchemas properties) = Keyed.sort (propertySchemas others)

/-! ## Fields in another order -/

inductive Part
  | type (value : Option String)
  | format (value : Option String)
  | description (value : Option String)
  | properties (value : List (String × SchemaFields))
  | items (value : Option SchemaFields)
  | literals (value : List Json)
  | ref (value : Option String)
  | additional (value : Option (Bool ⊕ SchemaFields))
  | preserveUnknown (value : Bool)
  | intOrString (value : Bool)

def Part.name : Part → String
  | type _ => "type"
  | format _ => "format"
  | description _ => "description"
  | properties _ => "properties"
  | items _ => "items"
  | literals _ => "enum"
  | ref _ => "$ref"
  | additional _ => "additionalProperties"
  | preserveUnknown _ => "x-kubernetes-preserve-unknown-fields"
  | intOrString _ => "x-kubernetes-int-or-string"

def put (draft : SchemaFields) : Part → SchemaFields
  | .type value => { draft with type := value }
  | .format value => { draft with format := value }
  | .description value => { draft with description := value }
  | .properties value => { draft with properties := value }
  | .items value => { draft with items := value }
  | .literals value => { draft with literals := value }
  | .ref value => { draft with ref := value }
  | .additional value => { draft with additional := value }
  | .preserveUnknown value => { draft with preserveUnknown := value }
  | .intOrString value => { draft with intOrString := value }

theorem put_comm (draft : SchemaFields) {part other : Part} (h : part.name ≠ other.name) :
    (draft.put part).put other = (draft.put other).put part := by
  cases part <;> cases other <;> first | rfl | exact absurd rfl h

/-- A field whose value is read before the other fields are looked at. -/
theorem put_cases {α : Type} (value : ReadResult α) (part : α → Part) {name : String}
    (hname : ∀ x, (part x).name = name) :
    (∃ error, ∀ draft : SchemaFields,
      (do return draft.put (part (← value)) : ReadResult SchemaFields) = .error error) ∨
    ∃ found : Part, found.name = name ∧ ∀ draft : SchemaFields,
      (do return draft.put (part (← value)) : ReadResult SchemaFields) = .ok (draft.put found) := by
  cases value with
  | error e => exact .inl ⟨e, fun _ => rfl⟩
  | ok x => exact .inr ⟨part x, hname x, fun _ => rfl⟩

/-- Setting a field does not look at the other fields: it fails whatever they are, or puts one part
in its place. -/
theorem set_cases (r : Reading) {name : String} (hn : name ∈ names) (v : Value)
    (schema choice : Unit → ReadResult SchemaFields)
    (properties : Unit → ReadResult (List (String × SchemaFields))) :
    (∃ error, ∀ draft, set r draft name v schema choice properties = .error error) ∨
    ∃ part : Part, part.name = name ∧
      ∀ draft, set r draft name v schema choice properties = .ok (draft.put part) := by
  simp only [names, List.mem_cons, List.not_mem_nil, or_false] at hn
  rcases hn with rfl | rfl | rfl | rfl | rfl | rfl | rfl | rfl | rfl | rfl
  · exact put_cases (Reading.optional r.string v) .type fun _ => rfl
  · exact put_cases (Reading.optional r.string v) .format fun _ => rfl
  · exact put_cases (Reading.optional r.string v) .description fun _ => rfl
  · exact put_cases (properties ()) .properties fun _ => rfl
  · exact put_cases (Reading.optional (fun _ => schema ()) v) .items fun _ => rfl
  · exact put_cases (r.sequence r.anyJson v) .literals fun _ => rfl
  · exact put_cases (Reading.optional r.string v) .ref fun _ => rfl
  · exact put_cases (Reading.optional (readAdditional choice) v) .additional fun _ => rfl
  · exact put_cases (r.boolean v) .preserveUnknown fun _ => rfl
  · exact put_cases (r.boolean v) .intOrString fun _ => rfl

def setValue (r : Reading) (draft : SchemaFields) (name : String) (v : Value) :
    ReadResult SchemaFields :=
  set r draft name v (fun _ => r.schema v) (fun _ => Reading.choice.schema v)
    (fun _ => r.properties v)

theorem commutes_setValue (r : Reading) : Reading.Commutes names (setValue r) := by
  intro draft name other v w hname hother hne
  unfold setValue
  have hfirst := set_cases r hname v (fun _ => r.schema v) (fun _ => Reading.choice.schema v)
    (fun _ => r.properties v)
  have hsecond := set_cases r hother w (fun _ => r.schema w) (fun _ => Reading.choice.schema w)
    (fun _ => r.properties w)
  rcases hfirst with ⟨e, he⟩ | ⟨part, hpart, hput⟩
  · rcases hsecond with ⟨e', he'⟩ | ⟨part', -, hput'⟩
    · simp only [he, he']
      exact .error e e'
    · simp only [he, hput']
      exact .error e _
  · rcases hsecond with ⟨e', he'⟩ | ⟨part', hpart', hput'⟩
    · simp only [he', hput]
      exact .error _ e'
    · simp only [hput, hput']
      exact .ok (put_comm draft (by rwa [hpart, hpart']))

theorem schemaEntries_eq_fill (r : Reading) (seen : List String) (draft : SchemaFields)
    (entries : List (Value × Value)) :
    r.schemaEntries seen draft entries = r.fill names (setValue r) seen draft entries := by
  induction entries generalizing seen draft with
  | nil => rw [Reading.schemaEntries, Reading.fill]
  | cons entry rest ih =>
      obtain ⟨k, v⟩ := entry
      rw [Reading.schemaEntries, Reading.fill]
      refine congrArg _ (funext fun found => ?_)
      cases found with
      | none => exact ih seen draft
      | some name =>
          by_cases hs : name ∈ seen
          · simp only [hs, if_true]
            rfl
          · simp only [hs, if_false, ih]
            rfl

/-! ## Values that are read alike -/

/-- Whether two values are the same up to the order of keys, and are read alike where a schema may
stand and where properties may. -/
structure ReadAlike (v w : Json) : Prop where
  same : v.Same w
  uniqueKeys : v.UniqueKeys
  schema : ∀ r : Reading, Agree Alike (r.schema (.ofJson v)) (r.schema (.ofJson w))
  properties : ∀ r : Reading,
    Agree AlikeProperties (r.properties (.ofJson v)) (r.properties (.ofJson w))

variable {v w : Json} {draft draft' : SchemaFields}

theorem optionalString_agree (h : v.Same w) (r : Reading) :
    Agree Eq (Reading.optional r.string (.ofJson v)) (Reading.optional r.string (.ofJson w)) := by
  refine (h.optional_agree (h.string_agree r)).mono fun x y hxy => ?_
  cases hxy with
  | none => rfl
  | some he => rw [he]

theorem literals_agree (h : v.Same w) (hu : v.UniqueKeys) (r : Reading) :
    Agree (fun xs ys => xs.map Json.canonical = ys.map Json.canonical)
      (r.sequence r.anyJson (.ofJson v)) (r.sequence r.anyJson (.ofJson w)) := by
  have hsame (u : Json) : Agree (fun xs ys => xs.map Json.canonical = ys.map Json.canonical)
      (r.sequence r.anyJson (.ofJson u)) (r.sequence r.anyJson (.ofJson u)) :=
    (Agree.refl _).mono fun _ _ he => by rw [he]
  cases h with
  | arr items =>
      change Agree _ (Reading.items r.anyJson 0 _) (Reading.items r.anyJson 0 _)
      rw [r.items_anyJson hu, r.items_anyJson (items.uniqueKeys hu)]
      have hcanonical := items.canonical_eq hu
      rw [Json.canonicalItems_eq_map, Json.canonicalItems_eq_map] at hcanonical
      exact .ok hcanonical
  | obj => exact .error _ _
  | _ => exact hsame _

theorem readAdditional_agree (h : v.Same w) {schema schema' : Unit → ReadResult SchemaFields}
    (hs : Agree Alike (schema ()) (schema' ())) :
    Agree (fun x y => additionalSchema (some x) = additionalSchema (some y))
      (readAdditional schema (.ofJson v)) (readAdditional schema' (.ofJson w)) := by
  unfold readAdditional
  rw [Value.firstTag?_ofJson, Value.firstTag?_ofJson]
  generalize schema () = found at hs ⊢
  generalize schema' () = found' at hs ⊢
  cases hs with
  | ok halike =>
      have hschema := congrArg some halike.toSchema_eq
      cases h with
      | bool b => exact .ok rfl
      | num n => cases n <;> exact .ok hschema
      | _ => exact .ok hschema
  | error e e' =>
      cases h with
      | bool b => exact .ok rfl
      | num n => cases n <;> exact .error _ _
      | _ => exact .error _ _

theorem itemSchema_eq {x y : Option SchemaFields} (h : Option.Rel Alike x y) :
    itemSchema x = itemSchema y := by
  cases h with
  | none => rfl
  | some halike => exact congrArg some halike.toSchema_eq

theorem additionalSchema_eq {x y : Option (Bool ⊕ SchemaFields)}
    (h : Option.Rel (fun x y => additionalSchema (some x) = additionalSchema (some y)) x y) :
    additionalSchema x = additionalSchema y := by
  cases h with
  | none => rfl
  | some hsame => exact hsame

/-- Every field is set alike from values that are read alike. -/
theorem set_agree (h : ReadAlike v w) (hd : Alike draft draft') (r : Reading) (name : String) :
    Agree Alike (setValue r draft name (.ofJson v)) (setValue r draft' name (.ofJson w)) := by
  unfold setValue set
  split
  · refine .bind (optionalString_agree h.same r) fun _ _ he => .ok ?_
    exact congrArg₂ (fun o x => { o with type := x }) hd he
  · refine .bind (optionalString_agree h.same r) fun _ _ he => .ok ?_
    exact congrArg₂ (fun o x => { o with format := x }) hd he
  · refine .bind (optionalString_agree h.same r) fun _ _ he => .ok ?_
    exact congrArg₂ (fun o x => { o with description := x }) hd he
  · refine .bind (h.properties r) fun _ _ he => .ok ?_
    exact congrArg₂ (fun o x => { o with properties := x }) hd he
  · refine .bind (h.same.optional_agree (h.schema r)) fun _ _ he => .ok ?_
    exact congrArg₂ (fun o x => { o with items := x }) hd (itemSchema_eq he)
  · refine .bind (literals_agree h.same h.uniqueKeys r) fun _ _ he => .ok ?_
    exact congrArg₂ (fun o x => { o with literals := x }) hd he
  · refine .bind (optionalString_agree h.same r) fun _ _ he => .ok ?_
    exact congrArg₂ (fun o x => { o with ref := x }) hd he
  · refine .bind (h.same.optional_agree (readAdditional_agree h.same (h.schema .choice)))
      fun _ _ he => .ok ?_
    exact congrArg₂ (fun o x => { o with additional := x }) hd (additionalSchema_eq he)
  · refine .bind (h.same.boolean_agree r) fun _ _ he => .ok ?_
    exact congrArg₂ (fun o x => { o with preserveUnknown := x }) hd he
  · refine .bind (h.same.boolean_agree r) fun _ _ he => .ok ?_
    exact congrArg₂ (fun o x => { o with intOrString := x }) hd he
  · exact .ok hd

/-! ## Schema objects -/

theorem schemaItems_agree (r : Reading) {xs ys : List Json} (h : List.Forall₂ ReadAlike xs ys)
    (length length' : Nat) (names : List String) (hd : Alike draft draft') :
    Agree Alike (r.schemaItems length names draft (Value.ofItems xs))
      (r.schemaItems length' names draft' (Value.ofItems ys)) := by
  induction h generalizing names draft draft' with
  | nil =>
      unfold Value.ofItems Reading.schemaItems
      split
      · exact .error _ _
      · exact .ok hd
  | cons hxy _ ih =>
      cases names with
      | nil =>
          rw [Value.ofItems, Value.ofItems, Reading.schemaItems, Reading.schemaItems]
          exact .error _ _
      | cons name names =>
          rw [Value.ofItems, Value.ofItems, Reading.schemaItems, Reading.schemaItems]
          exact .bind (set_agree hxy hd r name) fun _ _ hd => ih names hd

def FieldAlike (field other : String × Json) : Prop :=
  field.1 = other.1 ∧ ReadAlike field.2 other.2

variable {fields reordered others : List (String × Json)}

theorem schemaEntries_agree (r : Reading) (hvalues : List.Forall₂ FieldAlike fields reordered)
    (horder : reordered.Perm others) (hd : (fields.map (·.1)).Nodup) :
    Agree Alike (r.schemaEntries [] .empty (Value.ofFields fields))
      (r.schemaEntries [] .empty (Value.ofFields others)) := by
  rw [schemaEntries_eq_fill, schemaEntries_eq_fill]
  exact Reading.fill_agree (commutes_setValue r)
    (fun _ _ name _ _ hdraft hread => set_agree hread hdraft r name) hvalues horder hd rfl

/-! ## Properties -/

def readProperty (r : Reading) (field : String × Json) : ReadResult (String × SchemaFields) :=
  (ReadResult.within (.field field.1) (r.schema (.ofJson field.2))).map fun found =>
    (field.1, found)

/-- Of distinct keys none replaces a schema, so the properties keep the order of the fields. -/
theorem propertyEntries_ofFields (r : Reading) (done : List (String × SchemaFields))
    (hd : (done.map (·.1) ++ fields.map (·.1)).Nodup) :
    r.propertyEntries done (Value.ofFields fields) =
      (fields.mapM (readProperty r)).map (done ++ ·) := by
  induction fields generalizing done with
  | nil =>
      change Except.ok done = Except.ok (done ++ [])
      rw [List.append_nil]
  | cons field rest ih =>
      obtain ⟨k, v⟩ := field
      rw [Value.ofFields, Reading.propertyEntries, List.mapM_cons, readProperty]
      change (ReadResult.within (.field k) (r.schema (.ofJson v)) >>= fun found =>
        r.propertyEntries (Keyed.set k found done) (Value.ofFields rest)) = _
      cases ReadResult.within (.field k) (r.schema (.ofJson v)) with
      | error e => rfl
      | ok found =>
          obtain ⟨hnew, hrest⟩ := Keyed.nodup_snoc hd found
          change r.propertyEntries (Keyed.set k found done) (Value.ofFields rest) = _
          rw [Keyed.set_of_not_mem hnew, ih _ hrest]
          cases rest.mapM (readProperty r) with
          | error e => rfl
          | ok properties =>
              exact congrArg Except.ok (List.append_assoc done [(k, found)] properties)

theorem propertyEntries_eq_mapM (r : Reading) (hd : (fields.map (·.1)).Nodup) :
    r.propertyEntries [] (Value.ofFields fields) = fields.mapM (readProperty r) := by
  rw [propertyEntries_ofFields r [] hd]
  cases fields.mapM (readProperty r) with
  | error e => rfl
  | ok properties => rfl

def PropertyAlike (p q : String × SchemaFields) : Prop :=
  p.1 = q.1 ∧ Alike p.2 q.2

theorem readProperty_agree (r : Reading) {x y : String × Json} (h : FieldAlike x y) :
    Agree PropertyAlike (readProperty r x) (readProperty r y) :=
  .map (.within (h.2.schema r) _ _) fun _ _ halike => ⟨h.1, halike⟩

/-- Properties that are alike one by one come to the same in any order. -/
theorem alikeProperties_of_perm {ps qs properties : List (String × SchemaFields)}
    (h : List.Forall₂ PropertyAlike ps qs) (hp : qs.Perm properties)
    (hd : (ps.map (·.1)).Nodup) : AlikeProperties ps properties := by
  have hschemas : propertySchemas ps = propertySchemas qs := by
    rw [propertySchemas_eq_map, propertySchemas_eq_map, ← List.forall₂_eq_eq_eq,
      List.forall₂_map_left_iff, List.forall₂_map_right_iff]
    exact h.imp fun _ _ hpq => Prod.ext hpq.1 hpq.2.toSchema_eq
  have hkeys : ((propertySchemas qs).map (·.1)).Nodup := by
    rw [← hschemas, keys_propertySchemas]
    exact hd
  have hperm := hp.map fun p => (p.1, p.2.toSchema)
  rw [← propertySchemas_eq_map, ← propertySchemas_eq_map] at hperm
  rw [AlikeProperties, hschemas]
  exact Keyed.sort_eq_of_perm hkeys hperm

theorem propertyEntries_agree (r : Reading) (hvalues : List.Forall₂ FieldAlike fields reordered)
    (horder : reordered.Perm others) (hd : (fields.map (·.1)).Nodup) :
    Agree AlikeProperties (r.propertyEntries [] (Value.ofFields fields))
      (r.propertyEntries [] (Value.ofFields others)) := by
  have hkeys : fields.map (·.1) = reordered.map (·.1) := Keyed.keys_eq_of_forall₂ hvalues
  have hothers : (others.map (·.1)).Nodup := (horder.map _).nodup_iff.mp (hkeys ▸ hd)
  have hread : Agree (List.Forall₂ PropertyAlike) (fields.mapM (readProperty r))
      (reordered.mapM (readProperty r)) :=
    .mapM (fun _ _ hxy => readProperty_agree r hxy) hvalues
  have hperm : Agree List.Perm (reordered.mapM (readProperty r)) (others.mapM (readProperty r)) :=
    .mapM_perm horder
  have hproperties : Agree (fun ps properties => ∃ qs, List.Forall₂ PropertyAlike ps qs ∧
      qs.Perm properties) (fields.mapM (readProperty r)) (others.mapM (readProperty r)) :=
    hread.trans hperm fun _ qs _ halike hp => ⟨qs, halike, hp⟩
  have hunique := Reading.propertyEntries_uniqueKeys (Value.ofFields fields) r [] ⟨.nil, trivial⟩
  rw [propertyEntries_eq_mapM r hd] at hunique ⊢
  rw [propertyEntries_eq_mapM r hothers]
  refine (hproperties.and_left hunique).mono fun ps properties h => ?_
  obtain ⟨⟨qs, halike, hp⟩, hkeys, -⟩ := h
  exact alikeProperties_of_perm halike hp hkeys

/-! ## Whole values -/

theorem ReadAlike.refl (hu : v.UniqueKeys) : ReadAlike v v where
  same := .refl v
  uniqueKeys := hu
  schema r := (Agree.refl _).mono fun _ _ he => congrArg outline he
  properties r := (Agree.refl _).mono fun _ _ he => by rw [he, AlikeProperties]

/-- A sequence gives a schema object by position, and no properties. -/
theorem ReadAlike.arr {xs ys : List Json} (items : Json.SameItems xs ys)
    (hu : Json.UniqueKeysItems xs) (h : List.Forall₂ ReadAlike xs ys) :
    ReadAlike (.arr xs) (.arr ys) where
  same := .arr items
  uniqueKeys := hu
  schema r := by
    rw [Value.ofJson, Value.ofJson, Reading.schema, Reading.schema]
    cases r.recordsByPosition with
    | true => exact schemaItems_agree r h _ _ names rfl
    | false => exact .error _ _
  properties r := .error _ _

theorem ReadAlike.obj {fields reordered others : List (String × Json)}
    (values : Json.SameFields fields reordered) (order : reordered.Perm others)
    (hu : Json.UniqueKeys (.obj fields)) (h : List.Forall₂ FieldAlike fields reordered) :
    ReadAlike (.obj fields) (.obj others) where
  same := .obj values order
  uniqueKeys := hu
  schema r := by
    rw [Value.ofJson, Value.ofJson, Reading.schema, Reading.schema]
    exact schemaEntries_agree r h order hu.1
  properties r := by
    rw [Value.ofJson, Value.ofJson, Reading.properties, Reading.properties]
    exact propertyEntries_agree r h order hu.1

mutual

theorem readAlike_of_same {v w : Json} : v.Same w → v.UniqueKeys → ReadAlike v w
  | .null, h => .refl h
  | .bool _, h => .refl h
  | .num _, h => .refl h
  | .str _, h => .refl h
  | .arr items, h => .arr items h (readAlike_of_sameItems items h)
  | .obj values order, h => .obj values order h (fieldAlike_of_sameFields values h.2)

theorem readAlike_of_sameItems {xs ys : List Json} :
    Json.SameItems xs ys → Json.UniqueKeysItems xs → List.Forall₂ ReadAlike xs ys
  | .nil, _ => .nil
  | .cons item items, h =>
      .cons (readAlike_of_same item h.1) (readAlike_of_sameItems items h.2)

theorem fieldAlike_of_sameFields {fields others : List (String × Json)} :
    Json.SameFields fields others → Json.UniqueKeysFields fields →
      List.Forall₂ FieldAlike fields others
  | .nil, _ => .nil
  | .cons value values, h =>
      .cons ⟨rfl, readAlike_of_same value h.1⟩ (fieldAlike_of_sameFields values h.2)

end

end SchemaFields

/-- Values that are the same up to the order of keys either declare one schema or none. -/
theorem Json.Same.schema_agree {v w : Json} (h : v.Same w) (hu : v.UniqueKeys) (r : Reading) :
    Agree (fun fields others => fields.toSchema = others.toSchema) (r.schema (.ofJson v))
      (r.schema (.ofJson w)) :=
  ((SchemaFields.readAlike_of_same h hu).schema r).mono fun _ _ halike => halike.toSchema_eq

end ResourceTypes
