import ResourceTypes.Model.Basic

/-!
# Type models as JSON

The JSON form of a batch. Maps of types are sorted by name, and all other fields stand in the order
of their declaration.
-/

namespace ResourceTypes

def TypeRef.toJson : TypeRef → Json
  | .str => .obj [("type", .str "str")]
  | .i32 => .obj [("type", .str "i32")]
  | .i64 => .obj [("type", .str "i64")]
  | .f32 => .obj [("type", .str "f32")]
  | .f64 => .obj [("type", .str "f64")]
  | .bool => .obj [("type", .str "bool")]
  | .any => .obj [("type", .str "any")]
  | .external e => .obj [("type", .str "external"), ("of", .str e.label)]
  | .named name => .obj [("type", .str "named"), ("of", .str name)]
  | .sequence t => .obj [("type", .str "sequence"), ("of", t.toJson)]
  | .mapping t => .obj [("type", .str "mapping"), ("of", t.toJson)]
  | .optional t => .obj [("type", .str "optional"), ("of", t.toJson)]

def Descriptor.toJson (d : Descriptor) : Json :=
  .obj [("kind", .str d.kind), ("plural", .str d.plural), ("listKind", .str d.listKind),
    ("group", .str d.group), ("version", .str d.version)]

def Field.toJson (f : Field) : Json :=
  .obj [("name", .str f.name), ("jsonKey", .str f.jsonKey), ("ty", f.type.toJson),
    ("description", .ofOption f.description), ("enumRef", .ofOption f.enumRef)]

def StructType.toJson (s : StructType) : Json :=
  .obj [("name", .str s.name), ("path", .str s.path), ("fields", .arr (s.fields.map Field.toJson)),
    ("description", .str s.description), ("isRoot", .bool s.isRoot)]

def EnumConstant.toJson (c : EnumConstant) : Json :=
  .obj [("name", .str c.name), ("value", c.value)]

def EnumType.toJson (e : EnumType) : Json :=
  .obj [("name", .str e.name), ("base", e.base.toJson), ("description", .str e.description),
    ("constants", .arr (e.constants.map EnumConstant.toJson))]

def TypeModel.toJson (m : TypeModel) : Json :=
  .obj [("descriptor", m.descriptor.toJson), ("root", m.root.toJson),
    ("structs", .obj (m.structs.map fun s => (s.name, s.toJson))),
    ("enums", .obj (m.enums.map fun e => (e.name, e.toJson))),
    ("imports", .arr (m.imports.map fun e => .str e.label)), ("refs", Json.strings m.refs)]

def Batch.toJson (b : Batch) : Json :=
  .obj [("group", .str b.group), ("version", .str b.version),
    ("resources", .arr (b.resources.map TypeModel.toJson))]

end ResourceTypes
