import ResourceTypes.Code.Ident
import ResourceTypes.Code.Types
import ResourceTypes.Text.Blank

/-!
# Rust items

Structures and enumerations as lines of source. A description stands in front of its item as lines
of documentation, and nowhere else.
-/

namespace ResourceTypes.Code

abbrev Lines := List String

def line (depth : Nat) (text : String) : String :=
  String.ofList (List.replicate (4 * depth) ' ') ++ text

def blank : String := ""

def docLine (depth : Nat) (text : List Char) : String :=
  match Text.trimEnd text with
  | [] => line depth "///"
  | cs => line depth ("/// " ++ String.ofList cs)

/-- A description as documentation, line by line, without blanks at its ends. -/
def doc (depth : Nat) (description : String) : Lines :=
  match Text.trim description.toList with
  | [] => []
  | cs => (Text.splitOn '\n' cs).map (docLine depth)

def structDerives : String :=
  "#[derive(Clone, Debug, Default, PartialEq, Serialize, Deserialize)]"

def enumDerives : String :=
  "#[derive(Clone, Copy, Debug, Default, PartialEq, Eq, Hash, PartialOrd, Ord, Serialize, " ++
    "Deserialize)]"

/-- What serialization has to know about a field: its key where the identifier differs from it, and
when it is left out. -/
def fieldAttributes (ident : String) (field : Field) : List String :=
  (if stripRaw ident = field.jsonKey then [] else ["rename = " ++ Text.quoted field.jsonKey]) ++
    "default" ::
    match skipCheck? field.type with
    | some check => ["skip_serializing_if = " ++ Text.quoted check]
    | none => []

def fieldLines (ident : String) (field : Field) : Lines :=
  (match field.description with
    | some description => doc 1 description
    | none => []) ++
  [line 1 ("#[serde(" ++ ", ".intercalate (fieldAttributes ident field) ++ ")]"),
    line 1 ("pub " ++ ident ++ ": " ++ typeText field.type ++ ",")]

/-- Fields with identifiers that differ from each other and from those taken. -/
def fieldsLines (taken : List String) (fields : List Field) : Lines :=
  ((claimAll taken (fields.map (·.jsonKey))).zip fields).flatMap fun pair =>
    fieldLines pair.1 pair.2

def openItem (head : String) : String :=
  head ++ " \x7b"

def closeItem : String := "\x7d"

def structLines (s : StructType) : Lines :=
  doc 0 s.description ++ [structDerives, openItem ("pub struct " ++ s.name)] ++
    fieldsLines [] s.fields ++ [closeItem, blank]

def apiVersionLines : Lines :=
  [line 1 "#[serde(rename = \"apiVersion\", default)]", line 1 "pub api_version: String,",
    line 1 "#[serde(default)]", line 1 "pub kind: String,", line 1 "#[serde(default)]"]

def rootIdents : List String :=
  ["api_version", "kind", "metadata"]

def constLine (name value : String) : String :=
  line 1 ("pub const " ++ name ++ ": &'static str = " ++ Text.quoted value ++ ";")

def rootLines (m : TypeModel) : Lines :=
  let d := m.descriptor
  doc 0 m.root.description ++ [structDerives, openItem ("pub struct " ++ m.root.name)] ++
    apiVersionLines ++ [line 1 "pub metadata: ObjectMeta,"] ++
    fieldsLines rootIdents m.root.fields ++
    [closeItem, blank, openItem ("impl " ++ m.root.name), constLine "KIND" d.kind,
      constLine "PLURAL" d.plural, constLine "API_VERSION" d.apiVersion, closeItem, blank]

def listLines (d : Descriptor) : Lines :=
  doc 0 (d.listKind ++ " is a list of " ++ d.kind ++ ".") ++
    [structDerives, openItem ("pub struct " ++ d.listKind)] ++ apiVersionLines ++
    [line 1 "pub metadata: ListMeta,", line 1 ("pub items: Vec<" ++ d.kind ++ ">,"), closeItem,
      blank]

/-- Variants for constants in order. A variant that is taken gives way to the full name of its
constant. -/
def variants (enumName : String) (taken : List String) : List EnumConstant → List String
  | [] => []
  | c :: rest =>
    let short := variantName enumName c.name
    let variant := if short ∈ taken then c.name else short
    variant :: variants enumName (variant :: taken) rest

def variantLines (variant : String) (value : Json) : Lines :=
  [line 1 ("#[serde(rename = " ++ Text.quoted (value.str?.getD "") ++ ")]"),
    line 1 (variant ++ ",")]

/-- An enumeration of strings. Its first variant is the default. -/
def stringEnumLines (e : EnumType) : Lines :=
  let pairs := (variants e.name [] e.constants).zip e.constants
  let body := pairs.flatMap fun pair => variantLines pair.1 pair.2.value
  [enumDerives, openItem ("pub enum " ++ e.name)] ++
    (if body.isEmpty then [] else line 1 "#[default]" :: body) ++ [closeItem, blank]

def constName (name : String) : String :=
  (snakeCase name).map Char.toUpper

/-- A constant of an alias, or a remark where its type has no literal for the value. -/
def constantLine (e : EnumType) (c : EnumConstant) : String :=
  match constLiteral? e.base c.value with
  | some literal =>
    "pub const " ++ constName c.name ++ ": " ++ e.name ++ " = " ++ literal ++ ";"
  | none => "// " ++ c.name ++ ": " ++ c.value.text

def constEnumLines (e : EnumType) : Lines :=
  ("pub type " ++ e.name ++ " = " ++ typeText e.base ++ ";") ::
    e.constants.map (constantLine e) ++ [blank]

def EnumType.isStringEnum (e : EnumType) : Bool :=
  !e.constants.isEmpty && e.constants.all fun c => c.value.isStr

def enumLines (e : EnumType) : Lines :=
  doc 0 e.description ++
    if EnumType.isStringEnum e then stringEnumLines e else constEnumLines e

end ResourceTypes.Code
