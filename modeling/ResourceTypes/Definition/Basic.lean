import ResourceTypes.Model.Basic
import ResourceTypes.Schema.Basic
import ResourceTypes.Text.Quoted
import ResourceTypes.Value.Reading

/-!
# Resource definitions

A definition gives the identity of a resource and its versions in the order of their declaration.
The version that objects are stored in decides which schema is compiled.
-/

namespace ResourceTypes

structure Version where
  name : String
  served : Bool
  storage : Bool
  schema : Option Schema

structure Definition where
  kind : String
  plural : String
  listKind : String
  group : String
  versions : List Version

inductive DefinitionError
  /-- The text of a document is not well formed. -/
  | malformedText (source : String) (document : Nat)
  /-- The content of a document does not fit a definition. -/
  | malformedContent (source : String) (document : Nat) (error : ReadError)
  | noDefinition (source : String)
  | noMatchingVersion (kind : String) (desired : Option String)
  | missingSchema (kind version : String)

def DefinitionError.message : DefinitionError → String
  | .malformedText source document =>
    "malformed document " ++ source ++ " at document " ++ String.ofList (Decimal.natChars document)
  | .malformedContent source document error =>
    "malformed document " ++ source ++ " at document " ++
      String.ofList (Decimal.natChars document) ++ ": " ++ error.location ++ ": " ++ error.message
  | .noDefinition source => "no CustomResourceDefinition found in " ++ source
  | .noMatchingVersion kind desired =>
    let wanted := match desired with
      | some version => "storage version " ++ Text.quoted version
      | none => "a storage version"
    "could not find " ++ wanted ++ " in CRD of kind " ++ kind
  | .missingSchema kind version =>
    "version " ++ version ++ " of kind " ++ kind ++ " declares no openAPIV3Schema"

inductive Warning
  | notServed (kind version : String)
  | rootWithoutFields (kind : String)
  | danglingRef (name : String)

namespace Definition

/-- Declare a version. A later version of one name replaces the earlier one in its place. -/
def declare (version : Version) : List Version → List Version
  | [] => [version]
  | v :: rest => if v.name = version.name then version :: rest else v :: declare version rest

/-- Versions in the order in which their names were first declared. -/
def declared (versions : List Version) : List Version :=
  versions.foldl (fun versions v => declare v versions) []

/-- A definition with one version, which is served and stored. -/
def single (kind plural group version : String) (schema : Schema) : Definition :=
  ⟨kind, plural, kind ++ "List", group, [⟨version, true, true, some schema⟩]⟩

def storageVersion? (d : Definition) : Option Version :=
  d.versions.find? (·.storage)

/-- The first version that is stored and has the desired name, if one is desired. -/
def candidate? (d : Definition) (desired : Option String) : Option Version :=
  d.versions.find? fun v => v.storage && desired.all (· = v.name)

def select (d : Definition) (desired : Option String) :
    Except DefinitionError (Version × Schema) :=
  match d.candidate? desired with
  | none => .error (.noMatchingVersion d.kind desired)
  | some version =>
    match version.schema with
    | none => .error (.missingSchema d.kind version.name)
    | some schema => .ok (version, schema)

/-- What there is to report about a selected version. -/
def selectionWarnings (d : Definition) (version : Version) : List Warning :=
  if version.served then [] else [.notServed d.kind version.name]

def descriptor (d : Definition) (version : String) : Descriptor :=
  ⟨d.kind, d.plural, d.listKind, d.group, version⟩

end Definition

end ResourceTypes
