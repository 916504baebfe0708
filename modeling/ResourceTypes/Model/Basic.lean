import ResourceTypes.Json.Basic

/-!
# Type models

The types that are generated for a resource: a root structure, nested structures and enumerations,
and what they need from elsewhere.
-/

namespace ResourceTypes

inductive External
  | time
  | byteString
  | condition
  | objectMeta
  | listMeta
  | intOrString
  | rawExtension
  | json
  deriving DecidableEq

namespace External

def all : List External :=
  [.time, .byteString, .condition, .objectMeta, .listMeta, .intOrString, .rawExtension, .json]

def path : External → String
  | .time => "k8s_openapi::apimachinery::pkg::apis::meta::v1::Time"
  | .byteString => "k8s_openapi::ByteString"
  | .condition => "k8s_openapi::apimachinery::pkg::apis::meta::v1::Condition"
  | .objectMeta => "k8s_openapi::apimachinery::pkg::apis::meta::v1::ObjectMeta"
  | .listMeta => "k8s_openapi::apimachinery::pkg::apis::meta::v1::ListMeta"
  | .intOrString => "k8s_openapi::apimachinery::pkg::util::intstr::IntOrString"
  | .rawExtension => "k8s_openapi::apimachinery::pkg::runtime::RawExtension"
  | .json => "k8s_openapi::apiextensions_apiserver::pkg::apis::apiextensions::v1::JSON"

/-- The identifier under which the type is known once it is imported: the end of its path. -/
def ident : External → String
  | .time => "Time"
  | .byteString => "ByteString"
  | .condition => "Condition"
  | .objectMeta => "ObjectMeta"
  | .listMeta => "ListMeta"
  | .intOrString => "IntOrString"
  | .rawExtension => "RawExtension"
  | .json => "JSON"

def label : External → String
  | .json => "Json"
  | e => e.ident

end External

inductive TypeRef
  | str
  | i32
  | i64
  | f32
  | f64
  | bool
  /-- An opaque value. -/
  | any
  | external (type : External)
  /-- A generated type, or the target of a reference. -/
  | named (name : String)
  | sequence (item : TypeRef)
  /-- A mapping with string keys. -/
  | mapping (value : TypeRef)
  | optional (type : TypeRef)
  deriving DecidableEq

namespace TypeRef

def externals : TypeRef → List External
  | .external e => [e]
  | .sequence t => t.externals
  | .mapping t => t.externals
  | .optional t => t.externals
  | _ => []

/-- The names at any depth. A type holds one at most. -/
def names : TypeRef → List String
  | .named name => [name]
  | .sequence t => t.names
  | .mapping t => t.names
  | .optional t => t.names
  | _ => []

def hasMapping : TypeRef → Bool
  | .mapping _ => true
  | .sequence t => t.hasMapping
  | .optional t => t.hasMapping
  | _ => false

end TypeRef

structure Descriptor where
  kind : String
  plural : String
  listKind : String
  group : String
  version : String
  deriving DecidableEq

/-- Group and version. The core group has no name and is left out. -/
def Descriptor.apiVersion (d : Descriptor) : String :=
  if d.group = "" then d.version else d.group ++ "/" ++ d.version

structure Field where
  name : String
  /-- The key in documents. -/
  jsonKey : String
  type : TypeRef
  description : Option String
  /-- The enumeration that the type comes down to, if any. -/
  enumRef : Option String

structure StructType where
  name : String
  /-- The keys below the root joined by points, nothing for the root itself. -/
  path : String
  fields : List Field
  description : String
  isRoot : Bool

structure EnumConstant where
  name : String
  value : Json

structure EnumType where
  name : String
  base : TypeRef
  description : String
  constants : List EnumConstant

/-- The types of one resource. Nested types are sorted by name. -/
structure TypeModel where
  descriptor : Descriptor
  root : StructType
  structs : List StructType
  enums : List EnumType
  imports : List External
  /-- The names that references gave, sorted. The batch may lack a type of such a name. -/
  refs : List String

structure Batch where
  group : String
  version : String
  resources : List TypeModel

def sortedNames (names : List String) : List String :=
  (names.mergeSort fun a b => decide (a ≤ b)).eraseDups

namespace TypeModel

/-- Every field of a structure of the model, the root first. -/
def fields (m : TypeModel) : List Field :=
  (m.root :: m.structs).flatMap (·.fields)

def types (m : TypeModel) : List TypeRef :=
  m.fields.map (·.type) ++ m.enums.map (·.base)

def definedNames (m : TypeModel) : List String :=
  m.root.name :: m.structs.map (·.name) ++ m.enums.map (·.name)

end TypeModel

namespace Batch

/-- The targets of references that no resource of the batch defines. -/
def danglingRefs (b : Batch) : List String :=
  let defined := b.resources.flatMap (·.definedNames)
  sortedNames ((b.resources.flatMap (·.refs)).filter (· ∉ defined))

def find? (b : Batch) (kind : String) : Option TypeModel :=
  b.resources.find? (·.descriptor.kind = kind)

end Batch

end ResourceTypes
