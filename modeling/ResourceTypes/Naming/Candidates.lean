import ResourceTypes.Digest
import ResourceTypes.Naming.Words

/-!
# Candidates for a type name

A type is named after the field that holds it. Where that name is taken, the kind and then the keys
on the way to the field are put in front of it, the nearest key first. A digest of the whole path
names it when all of these are taken.
-/

namespace ResourceTypes.Naming

structure Candidates where
  fieldName : String
  kind : String
  /-- The keys that lead to the parent of the field, with the kind in front. -/
  path : List String
  /-- Whether the bare field name may be used. -/
  allowBare : Bool

namespace Candidates

/-- Names with more and more keys in front, for the keys from the nearest outwards. -/
def prefixed (fieldName joined : String) : List String → List String
  | [] => []
  | key :: rest =>
    let joined := camelCase key ++ joined
    (joined ++ fieldName) :: prefixed fieldName joined rest

def ordered (c : Candidates) : List String :=
  (if c.allowBare then [c.fieldName] else []) ++
    (c.kind ++ c.fieldName) :: prefixed c.fieldName "" c.path.reverse

/-- The field name with half of the digest of its path. -/
def fallback (c : Candidates) : String :=
  let path := ".".intercalate c.path ++ "." ++ c.fieldName
  c.fieldName ++ "_" ++ String.ofList ((Digest.ofChars path.toList).hex.take 32)

end Candidates

end ResourceTypes.Naming
