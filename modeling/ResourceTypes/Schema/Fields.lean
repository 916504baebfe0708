import ResourceTypes.Schema.Basic
import ResourceTypes.Value.Reading

/-!
# What a schema declares

The fields of one schema object as they are declared, and the schema that they amount to. A declared
type decides the shape. Without one, a reference, the mark of a number or string and a list of
literals are tried in this order.
-/

namespace ResourceTypes

/-- The declared fields. Unknown fields are dropped. -/
structure SchemaFields where
  type : Option String
  format : Option String
  description : Option String
  properties : List (String × SchemaFields)
  items : Option SchemaFields
  literals : List Json
  ref : Option String
  /-- Either a permission or a schema for further properties. -/
  additional : Option (Bool ⊕ SchemaFields)
  preserveUnknown : Bool
  intOrString : Bool

def SchemaFields.empty : SchemaFields :=
  ⟨none, none, none, [], none, [], none, none, false, false⟩

namespace SchemaFields

def nonempty (s : Option String) : Option String :=
  s.filter fun text => text ≠ ""

mutual

def toSchema : SchemaFields → Schema
  | ⟨type, format, description, properties, items, literals, ref, additional, preserveUnknown,
      intOrString⟩ =>
    let literals := literals.map Json.canonical
    .mk (nonempty description) <|
      match nonempty type with
      | some "object" =>
        .object (Keyed.sort (propertySchemas properties)) (additionalSchema additional)
          preserveUnknown
      | some "array" => .array (itemSchema items)
      | some name =>
        if literals.isEmpty then .scalar (.ofName name) format
        else .enum (.ofName name) format literals
      | none =>
        match ref with
        | some pointer => .ref pointer
        | none =>
          if intOrString then .intOrString
          else if literals.isEmpty then .untyped
          else .enum (.ofLiterals literals) format literals

def propertySchemas : List (String × SchemaFields) → List (String × Schema)
  | [] => []
  | (key, fields) :: rest => (key, toSchema fields) :: propertySchemas rest

def itemSchema : Option SchemaFields → Option Schema
  | none => none
  | some fields => some (toSchema fields)

def additionalSchema : Option (Bool ⊕ SchemaFields) → Option Schema
  | some (.inr fields) => some (toSchema fields)
  | some (.inl _) => none
  | none => none

end

end SchemaFields

end ResourceTypes
