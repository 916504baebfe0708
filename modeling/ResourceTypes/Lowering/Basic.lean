import ResourceTypes.Definition.Basic
import ResourceTypes.Lowering.Types
import ResourceTypes.Naming.Registry

/-!
# Lowering of schemas

Lowering walks a schema in the order of its keys and turns it into types. The registry decides
whether a shape is new. Only a new shape adds a type to the model, every other one is a reference to
the type that its first occurrence made.
-/

namespace ResourceTypes

open Naming (Registry)

/-- Identifiers that generated code uses without a path, besides the external types. -/
def preludeNames : List String :=
  ["BTreeMap", "Serialize", "Deserialize", "String", "Vec", "Option"]

/-- Identifiers that no generated type may have. -/
def importedNames : List String :=
  External.all.map External.ident ++ preludeNames

namespace Lowering

/-- Where a schema stands. -/
structure Site where
  kind : String
  /-- The keys from the kind to the parent structure. -/
  path : List String
  key : String
  fieldName : String
  parentIsRoot : Bool

def Site.candidates (site : Site) (allowBare : Bool) : Naming.Candidates :=
  ⟨site.fieldName, site.kind, site.path, allowBare⟩

/-- What lowering has gathered. Types stand in the order of their completion. -/
structure State where
  registry : Registry
  structs : List StructType
  enums : List EnumType
  refs : List String

/-- The type of a schema and the enumeration that it comes down to. -/
structure Lowered where
  type : TypeRef
  enumRef : Option String

def Lowered.plain (type : TypeRef) : Lowered :=
  ⟨type, none⟩

def Lowered.wrap (container : TypeRef → TypeRef) (lowered : Lowered) : Lowered :=
  ⟨container lowered.type, lowered.enumRef⟩

/-- The type of an object that declares neither properties nor a schema for further ones. -/
def bareObjectType (key : String) (preserveUnknown : Bool) : TypeRef :=
  if key = "metadata" then .external .objectMeta
  else if preserveUnknown then .external .rawExtension
  else .mapping .any

def structDescription (name path : String) (description : Option String) : String :=
  description.getD (name ++ " represents a " ++ path)

def fieldBefore (a b : Field) : Bool :=
  decide (a.name < b.name) || (a.name = b.name && decide (a.jsonKey ≤ b.jsonKey))

/-- Fields by name, and by key among those of one name. -/
def sortFields (fields : List Field) : List Field :=
  fields.mergeSort fieldBefore

/-- The type of an enumeration, which is new when its set of literals is. -/
def lowerEnum (site : Site) (kind : ScalarKind) (format : Option String) (literals : List Json)
    (state : State) : Lowered × State :=
  let assigned := state.registry.assign (.ofLiterals literals) (site.candidates true)
  let name := assigned.name
  if assigned.fresh then
    let path := ".".intercalate (site.path ++ [site.key])
    let type : EnumType :=
      ⟨name, scalarType kind format, name ++ " enumerates the values of " ++ path,
        enumConstants name literals⟩
    (⟨.named name, some name⟩,
      { state with registry := assigned.registry, enums := state.enums ++ [type] })
  else (⟨.named name, some name⟩, state)

mutual

def lowerSchema (site : Site) : Schema → State → Lowered × State
  | .mk description shape, state => lowerShape site description shape state

def lowerShape (site : Site) (description : Option String) : Shape → State → Lowered × State
  | .scalar kind format, state => (.plain (scalarType kind format), state)
  | .enum kind format literals, state => lowerEnum site kind format literals state
  | .object properties additional preserveUnknown, state =>
    if isCondition properties then (.plain (.external .condition), state)
    else if properties.isEmpty then
      match additional with
      | some schema =>
        let value := lowerSchema site schema state
        (value.1.wrap .mapping, value.2)
      | none => (.plain (bareObjectType site.key preserveUnknown), state)
    else
      let assigned :=
        state.registry.assign (.ofProperties properties) (site.candidates !site.parentIsRoot)
      let name := assigned.name
      if assigned.fresh then
        let path := site.path ++ [site.key]
        let fields :=
          lowerFields site.kind path false properties { state with registry := assigned.registry }
        let type : StructType :=
          ⟨name, ".".intercalate (path.drop 1), sortFields fields.1,
            structDescription name (".".intercalate path) description, false⟩
        (.plain (.named name), { fields.2 with structs := fields.2.structs ++ [type] })
      else (.plain (.named name), state)
  | .array none, state => (.plain (.sequence .any), state)
  | .array (some schema), state =>
    let item := lowerSchema site schema state
    (item.1.wrap .sequence, item.2)
  | .ref pointer, state =>
    let name := Naming.refName pointer
    (.plain (.named name), { state with refs := state.refs ++ [name] })
  | .intOrString, state => (.plain (.external .intOrString), state)
  | .untyped, state => (.plain (.external .json), state)

/-- The fields of properties, in the order of their keys. -/
def lowerFields (kind : String) (path : List String) (parentIsRoot : Bool) :
    List (String × Schema) → State → List Field × State
  | [], state => ([], state)
  | (key, schema) :: rest, state =>
    let name := Naming.camelCase key
    let lowered := lowerSchema ⟨kind, path, key, name, parentIsRoot⟩ schema state
    let fields := lowerFields kind path parentIsRoot rest lowered.2
    (⟨name, key, lowered.1.type, schema.description, lowered.1.enumRef⟩ :: fields.1, fields.2)

end

/-- The keys of a resource that become fields of its root structure. -/
def rootKeys : List String :=
  ["spec", "status"]

/-- The external types of a model. Every root and every list has metadata. -/
def imports (types : List TypeRef) : List External :=
  let used := [.objectMeta, .listMeta] ++ types.flatMap TypeRef.externals
  External.all.filter (· ∈ used)

/-- The properties of a schema from which the root structure gets its fields. -/
def rootProperties? (schema : Schema) : Option (List (String × Schema)) :=
  match schema.shape with
  | .object properties _ _ => some (properties.filter fun property => property.1 ∈ rootKeys)
  | _ => none

/-- The names that a resource takes before its types are named. -/
def ownNames (d : Descriptor) : List String :=
  d.kind :: d.listKind :: importedNames

def lower (registry : Registry) (schema : Schema) (d : Descriptor) : TypeModel × Registry :=
  let start : State := ⟨registry.reserveAll (ownNames d), [], [], []⟩
  let fields := lowerFields d.kind [d.kind] true ((rootProperties? schema).getD []) start
  let state := fields.2
  let root : StructType :=
    ⟨d.kind, "", sortFields fields.1, structDescription d.kind d.kind schema.description, true⟩
  let types := (root :: state.structs).flatMap (fun s => s.fields.map (·.type)) ++
    state.enums.map (·.base)
  let model : TypeModel :=
    { descriptor := d
      root := root
      structs := state.structs.mergeSort fun a b => decide (a.name ≤ b.name)
      enums := state.enums.mergeSort fun a b => decide (a.name ≤ b.name)
      imports := imports types
      refs := sortedNames state.refs }
  (model, state.registry)

def warnings (schema : Schema) (d : Descriptor) : List Warning :=
  if (rootProperties? schema).isSome then [] else [.rootWithoutFields d.kind]

end Lowering

end ResourceTypes
