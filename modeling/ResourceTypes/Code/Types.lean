import ResourceTypes.Json.Text
import ResourceTypes.Model.Basic
import ResourceTypes.Text.Quoted

/-!
# Rust types and literals

The text of a type, the test under which a field is left out when it is written, and the literals of
constants.
-/

namespace ResourceTypes.Code

def typeText : TypeRef → String
  | .str => "String"
  | .i32 => "i32"
  | .i64 => "i64"
  | .f32 => "f32"
  | .f64 => "f64"
  | .bool => "bool"
  | .any => "serde_json::Value"
  | .external e => e.ident
  | .named name => name
  | .sequence t => "Vec<" ++ typeText t ++ ">"
  | .mapping t => "BTreeMap<String, " ++ typeText t ++ ">"
  | .optional t => "Option<" ++ typeText t ++ ">"

/-- The test for an empty value, for types that have one. -/
def skipCheck? : TypeRef → Option String
  | .optional _ => some "Option::is_none"
  | .sequence _ => some "Vec::is_empty"
  | .mapping _ => some "BTreeMap::is_empty"
  | _ => none

/-- A number for a binary floating type shows a point or a power of ten. -/
def floatText (n : Json.Number) : String :=
  match n with
  | .int value => String.ofList (Decimal.intChars value) ++ ".0"
  | .float value => String.ofList value.chars

/-- The literal of a constant, where the type has one for the value. -/
def constLiteral? : TypeRef → Json → Option String
  | .i32, .num (.int n) => some (String.ofList (Decimal.intChars n))
  | .i64, .num (.int n) => some (String.ofList (Decimal.intChars n))
  | .f32, .num n => some (floatText n)
  | .f64, .num n => some (floatText n)
  | .bool, .bool b => some (String.ofList (Json.boolChars b))
  | .str, .str s => some (Text.quoted s)
  | _, _ => none

end ResourceTypes.Code
