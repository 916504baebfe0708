import ResourceTypes.Model.Basic
import ResourceTypes.Naming.Numbered
import ResourceTypes.Naming.Words
import ResourceTypes.Schema.Basic

/-!
# Types of schemas

The parts of the lowering of schemas to types that depend on a single schema: the type of a
scalar, the shape of a condition and the constants of an enumeration.
-/

namespace ResourceTypes

def scalarType : ScalarKind → Option String → TypeRef
  | .string, some "date-time" => .external .time
  | .string, some "byte" => .external .byteString
  | .string, some "binary" => .external .byteString
  | .string, _ => .str
  | .integer, some "int32" => .i32
  | .integer, some "int64" => .i64
  | .integer, some "float" => .f32
  | .integer, some "double" => .f64
  | .integer, _ => .i64
  | .number, some "int32" => .i32
  | .number, some "int64" => .i64
  | .number, some "float" => .f32
  | .number, some "double" => .f64
  | .number, _ => .f64
  | .boolean, _ => .bool
  | .other _, _ => .any

def conditionStatus : List String :=
  ["True", "False", "Unknown"]

def conditionKeys : List String :=
  ["type", "status", "reason", "message", "lastTransitionTime", "observedGeneration"]

/-- Whether a property is a string, of a given format if one is asked for. -/
def isStringProperty (properties : List (String × Schema)) (key : String)
    (format : Option String) : Bool :=
  match (properties.lookup key).bind Schema.scalar? with
  | some (.string, found) => format.isNone || found = format
  | _ => false

/-- Whether three literals contain the three states of a condition. -/
def isStatusProperty (properties : List (String × Schema)) : Bool :=
  match properties.lookup "status" with
  | some status =>
    status.literals.length = conditionStatus.length &&
      conditionStatus.all fun state => status.literals.any fun l => l.str? = some state
  | none => false

/-- The customary condition of a status: five strings, of which one is a time and one has three
states. An observed generation is the only other property that it may have. -/
def isCondition (properties : List (String × Schema)) : Bool :=
  isStringProperty properties "type" none && isStringProperty properties "status" none &&
    isStringProperty properties "reason" none && isStringProperty properties "message" none &&
    isStringProperty properties "lastTransitionTime" (some "date-time") &&
    isStatusProperty properties && properties.all fun property => property.1 ∈ conditionKeys

/-- The name of the constant of a literal, before it is told apart from others. -/
def constantBase (enumName : String) (literal : Json) : String :=
  let suffix := Naming.constantSuffix literal
  enumName ++ (if suffix = "" then "Value" else suffix)

/-- Constants for the literals after those whose texts and names are known. -/
def enumConstantsFrom (enumName : String) (texts taken : List String) :
    List Json → List EnumConstant
  | [] => []
  | literal :: rest =>
    let text := literal.text
    if literal.isNull || text ∈ texts then enumConstantsFrom enumName texts taken rest
    else
      let name := Naming.firstFree taken (Naming.numbered (constantBase enumName literal))
      ⟨name, literal⟩ :: enumConstantsFrom enumName (text :: texts) (name :: taken) rest

/-- One constant for each literal but null. A literal that comes again has no constant of its own,
and names that coincide are numbered. -/
def enumConstants (enumName : String) (literals : List Json) : List EnumConstant :=
  enumConstantsFrom enumName [] [] literals

end ResourceTypes
