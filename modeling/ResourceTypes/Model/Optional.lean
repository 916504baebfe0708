import ResourceTypes.Model.Basic

/-!
# Optional fields

Fields of nested structures may be made optional. A container stays in place and its elements become
optional, any other type becomes optional itself. The root structure is left as it is, and doing so
twice is the same as doing so once.
-/

namespace ResourceTypes

namespace TypeRef

def orNone : TypeRef → TypeRef
  | .optional t => .optional t
  | t => .optional t

/-- The type of a field that may be left out. -/
def relax : TypeRef → TypeRef
  | .sequence t => .sequence t.orNone
  | .mapping t => .mapping t.orNone
  | t => t.orNone

@[simp] theorem orNone_orNone (t : TypeRef) : t.orNone.orNone = t.orNone := by
  cases t <;> rfl

@[simp] theorem relax_relax (t : TypeRef) : t.relax.relax = t.relax := by
  cases t <;> simp [relax] <;> simp [orNone]

end TypeRef

def StructType.relax (s : StructType) : StructType :=
  { s with fields := s.fields.map fun f => { f with type := f.type.relax } }

def TypeModel.relax (m : TypeModel) : TypeModel :=
  { m with structs := m.structs.map StructType.relax }

end ResourceTypes
