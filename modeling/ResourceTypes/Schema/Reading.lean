import ResourceTypes.Schema.Fields

/-!
# Reading schemas

A schema object is read field by field. Further properties are a choice between a permission and a
schema, and below a choice nothing but the failure of both alternatives is reported.
-/

namespace ResourceTypes

namespace SchemaFields

/-- The fields of a schema object, in the order in which a sequence gives them. -/
def names : List String :=
  ["type", "format", "description", "properties", "items", "enum", "$ref", "additionalProperties",
    "x-kubernetes-preserve-unknown-fields", "x-kubernetes-int-or-string"]

def needed : List String :=
  ["type", "format", "description", "items", "$ref", "additionalProperties"]

def record : String := "RawSchema"

/-- A permission, or a schema. A tag anywhere below prevents the choice. -/
def readAdditional (schema : Unit → ReadResult SchemaFields) (v : Value) :
    ReadResult (Bool ⊕ SchemaFields) :=
  match v.firstTag?, v with
  | some path, _ => .error ⟨path, .taggedAlternative⟩
  | none, .bool b => .ok (.inl b)
  | none, _ =>
    match schema () with
    | .ok fields => .ok (.inr fields)
    | .error _ => ReadResult.fail (.noAlternative "RawAdditional")

/-- Set the field of a name. The readings of the value as a schema, as a schema below a choice and
as properties are asked for where the field needs them. -/
def set (r : Reading) (draft : SchemaFields) (name : String) (v : Value)
    (schema choice : Unit → ReadResult SchemaFields)
    (properties : Unit → ReadResult (List (String × SchemaFields))) : ReadResult SchemaFields :=
  match name with
  | "type" => do return { draft with type := ← Reading.optional r.string v }
  | "format" => do return { draft with format := ← Reading.optional r.string v }
  | "description" => do return { draft with description := ← Reading.optional r.string v }
  | "properties" => do return { draft with properties := ← properties () }
  | "items" => do return { draft with items := ← Reading.optional (fun _ => schema ()) v }
  | "enum" => do return { draft with literals := ← r.sequence r.anyJson v }
  | "$ref" => do return { draft with ref := ← Reading.optional r.string v }
  | "additionalProperties" => do
    return { draft with additional := ← Reading.optional (readAdditional choice) v }
  | "x-kubernetes-preserve-unknown-fields" => do
    return { draft with preserveUnknown := ← r.boolean v }
  | "x-kubernetes-int-or-string" => do return { draft with intOrString := ← r.boolean v }
  | _ => .ok draft

end SchemaFields

mutual

def Reading.schema (r : Reading) : Value → ReadResult SchemaFields
  | .map entries => Reading.schemaEntries r [] .empty entries
  | .seq items =>
    if r.recordsByPosition then
      Reading.schemaItems r items.length SchemaFields.names .empty items
    else r.refuse (.seq items) (.record SchemaFields.record)
  | .null =>
    if r.nullIsEmpty then .ok .empty else r.refuse .null (.record SchemaFields.record)
  | .tagged _ v => Reading.schema r v
  | v => r.refuse v (.record SchemaFields.record)

def Reading.schemaEntries (r : Reading) (seen : List String) (draft : SchemaFields) :
    List (Value × Value) → ReadResult SchemaFields
  | [] => .ok draft
  | (k, v) :: rest => do
    match ← r.fieldName SchemaFields.names k with
    | none => Reading.schemaEntries r seen draft rest
    | some name =>
      if name ∈ seen then ReadResult.fail (.repeatedField name)
      let draft ← ReadResult.within (.field name) <|
        SchemaFields.set r draft name v (fun _ => Reading.schema r v)
          (fun _ => Reading.schema .choice v) (fun _ => Reading.properties r v)
      Reading.schemaEntries r (name :: seen) draft rest

def Reading.schemaItems (r : Reading) (length : Nat) (names : List String)
    (draft : SchemaFields) : List Value → ReadResult SchemaFields
  | [] =>
    match names.find? (· ∈ SchemaFields.needed) with
    | some name =>
      ReadResult.fail
        (.shortRecord (SchemaFields.names.idxOf name) SchemaFields.record
          SchemaFields.names.length)
    | none => .ok draft
  | v :: rest =>
    match names with
    | [] => ReadResult.fail (.longRecord length)
    | name :: names => do
      let draft ← SchemaFields.set r draft name v (fun _ => Reading.schema r v)
        (fun _ => Reading.schema .choice v) (fun _ => Reading.properties r v)
      Reading.schemaItems r length names draft rest

/-- Properties by key. A key that comes again replaces the schema. -/
def Reading.properties (r : Reading) : Value → ReadResult (List (String × SchemaFields))
  | .map entries => Reading.propertyEntries r [] entries
  | .null => if r.nullIsEmpty then .ok [] else r.refuse .null .mapping
  | .tagged _ v => Reading.properties r v
  | v => r.refuse v .mapping

def Reading.propertyEntries (r : Reading) (properties : List (String × SchemaFields)) :
    List (Value × Value) → ReadResult (List (String × SchemaFields))
  | [] => .ok properties
  | (k, v) :: rest => do
    let key ← r.key .string k
    let fields ← ReadResult.within (.field key) (Reading.schema r v)
    Reading.propertyEntries r (Keyed.set key fields properties) rest

end

def Schema.ofJson (v : Json) : ReadResult Schema := do
  return (← Reading.json.schema (.ofJson v)).toSchema

end ResourceTypes
