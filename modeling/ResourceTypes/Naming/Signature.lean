import ResourceTypes.Digest
import ResourceTypes.Schema.Basic

/-!
# Signatures of shapes

The signature of a shape is the digest of a text that determines it: the properties of an object in
the order of their keys, or the set of an enumeration's literals. The text opens with the sort of
shape, so the two sorts never meet.
-/

namespace ResourceTypes

abbrev Signature := Digest

namespace Signature

def propertyToJson (property : String × Schema) : Json :=
  .obj [("key", .str property.1), ("schema", property.2.toJson)]

/-- The text of properties, sorted by key. Properties of one key keep their order. -/
def propertiesText (properties : List (String × Schema)) : List Char :=
  "struct".toList ++ '\x00' :: Json.chars (.arr ((Keyed.sort properties).map propertyToJson))

def literalTexts (literals : List Json) : List String :=
  ((literals.map fun v => v.canonical.text).mergeSort fun a b => decide (a ≤ b)).eraseDups

/-- The text of a set of literals. -/
def literalsText (literals : List Json) : List Char :=
  "enum".toList ++ '\x00' :: Json.chars (Json.strings (literalTexts literals))

def ofProperties (properties : List (String × Schema)) : Signature :=
  Digest.ofChars (propertiesText properties)

def ofLiterals (literals : List Json) : Signature :=
  Digest.ofChars (literalsText literals)

def label (s : Signature) : String :=
  "Signature(" ++ String.ofList (s.hex.take 16) ++ ")"

end Signature

end ResourceTypes
