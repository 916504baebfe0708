import ResourceTypes.Proofs.Code.FieldNames
import ResourceTypes.Proofs.Code.Lines
import ResourceTypes.Proofs.Text.Quoted

/-! # The fields of a structure

The lines of a structure are read back: each field has one identifier and stands for its key, which
is the identifier itself unless an attribute names another one. All identifiers may name fields, and
they differ even without the marks of raw ones. The root structure has three fields of its own, from
which the others are kept apart as well.
-/

namespace ResourceTypes.Code

/-! ## Reading -/

/-- A field as the lines of a structure have it. -/
structure FieldItem where
  /-- The key that an attribute gives to the field. -/
  rename : Option String
  identifier : String

def FieldItem.key (f : FieldItem) : String :=
  f.rename.getD (plainName f.identifier)

def docLead : String := "    ///"

/-- Whether attributes go on with a default, perhaps a test for empty values, and nothing else. -/
def isAttributesEnd (cs : List Char) : Bool :=
  ("default".toList.isPrefixOf? cs).any fun rest =>
    rest = ")]".toList || (", skip_serializing_if = ".toList.isPrefixOf? rest).any fun check =>
      (Text.readQuoted check).any fun value => value.2 = ")]".toList

def readAttributes (l : String) : Option (Option String) :=
  ("    #[serde(".toList.isPrefixOf? l.toList).bind fun rest =>
    match "rename = ".toList.isPrefixOf? rest with
    | some quoted => (Text.readQuoted quoted).bind fun value =>
        (", ".toList.isPrefixOf? value.2).bind fun others =>
          if isAttributesEnd others then some (some (String.ofList value.1)) else none
    | none => if isAttributesEnd rest then some none else none

def readFieldName (l : String) : Option String :=
  ("    pub ".toList.isPrefixOf? l.toList).bind fun rest =>
    if ": ".toList.isPrefixOf (rest.dropWhile (· ≠ ':')) && rest.getLast? = some ',' then
      some (String.ofList (rest.takeWhile (· ≠ ':')))
    else none

def readFields : Lines → Option (List FieldItem)
  | [] => some []
  | l :: rest =>
    if begins docLead l then readFields rest
    else match rest with
      | [] => none
      | name :: rest => do
        return ⟨← readAttributes l, ← readFieldName name⟩ :: (← readFields rest)

/-- The field with an identifier, which is told its key where the identifier is another word. -/
def FieldItem.of (pair : String × Field) : FieldItem :=
  ⟨if stripRaw pair.1 = pair.2.jsonKey then none else some pair.2.jsonKey, pair.1⟩

end ResourceTypes.Code
