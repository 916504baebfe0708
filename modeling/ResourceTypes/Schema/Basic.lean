import ResourceTypes.Json.Text

/-!
# Schemas

A schema is a description and a shape. The shapes are the cases that type generation tells apart.
The properties of an object are sorted by key. Two schemas are written as the same JSON text just
when they are equal, number by number.
-/

namespace ResourceTypes

inductive ScalarKind
  | string
  | integer
  | number
  | boolean
  /-- A type name outside the scalar types, or the empty name in its absence. -/
  | other (name : String)
  deriving DecidableEq

mutual

inductive Schema
  | mk (description : Option String) (shape : Shape)

inductive Shape
  | scalar (kind : ScalarKind) (format : Option String)
  | enum (kind : ScalarKind) (format : Option String) (literals : List Json)
  | object (properties : List (String × Schema)) (additional : Option Schema)
      (preserveUnknown : Bool)
  | array (items : Option Schema)
  | ref (pointer : String)
  | intOrString
  | untyped

end

instance : Inhabited Schema := ⟨.mk none .untyped⟩

namespace ScalarKind

def ofName : String → ScalarKind
  | "string" => .string
  | "integer" => .integer
  | "number" => .number
  | "boolean" => .boolean
  | name => .other name

/-- The kind that all literals have, null apart. -/
def ofLiterals (literals : List Json) : ScalarKind :=
  let present := literals.filter fun v => !v.isNull
  if present.all Json.isStr then .string
  else if present.all Json.isInt then .integer
  else if present.all Json.isNum then .number
  else if present.all Json.isBool then .boolean
  else .other ""

def toJson : ScalarKind → Json
  | .string => .str "string"
  | .integer => .str "integer"
  | .number => .str "number"
  | .boolean => .str "boolean"
  | .other name => .obj [("other", .str name)]

end ScalarKind

namespace Schema

def description : Schema → Option String
  | .mk description _ => description

def shape : Schema → Shape
  | .mk _ shape => shape

def scalar? (s : Schema) : Option (ScalarKind × Option String) :=
  match s.shape with
  | .scalar kind format => some (kind, format)
  | .enum kind format _ => some (kind, format)
  | _ => none

def literals (s : Schema) : List Json :=
  match s.shape with
  | .enum _ _ literals => literals
  | _ => []

end Schema

mutual

/-- A description is left out when there is none. -/
def Schema.toJson : Schema → Json
  | .mk none shape => .obj [("shape", Shape.toJson shape)]
  | .mk (some description) shape =>
    .obj [("description", .str description), ("shape", Shape.toJson shape)]

def Shape.toJson : Shape → Json
  | .scalar kind format =>
    .obj [("shape", .str "scalar"), ("kind", kind.toJson), ("format", .ofOption format)]
  | .enum kind format literals =>
    .obj [("shape", .str "enum"), ("kind", kind.toJson), ("format", .ofOption format),
      ("literals", .arr literals)]
  | .object properties additional preserveUnknown =>
    .obj [("shape", .str "object"), ("properties", .obj (Schema.propertiesToJson properties)),
      ("additional", Schema.optionToJson additional), ("preserveUnknown", .bool preserveUnknown)]
  | .array items => .obj [("shape", .str "array"), ("items", Schema.optionToJson items)]
  | .ref pointer => .obj [("shape", .str "ref"), ("pointer", .str pointer)]
  | .intOrString => .obj [("shape", .str "intOrString")]
  | .untyped => .obj [("shape", .str "untyped")]

def Schema.propertiesToJson : List (String × Schema) → List (String × Json)
  | [] => []
  | (key, s) :: rest => (key, Schema.toJson s) :: Schema.propertiesToJson rest

def Schema.optionToJson : Option Schema → Json
  | none => .null
  | some s => Schema.toJson s

end

end ResourceTypes
