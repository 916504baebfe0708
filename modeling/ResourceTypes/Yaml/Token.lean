import ResourceTypes.Yaml.Tag

/-!
# Tokens

The words, marks and brackets of a stream of documents. Block collections have no brackets in the
text; the tokens that open and close them come from the indentation.
-/

namespace ResourceTypes.Yaml

inductive Token
  | version (major minor : Nat)
  | handle (name : String) (start : List UInt8)
  | documentStart
  | documentEnd
  | streamEnd
  | blockSequence
  | blockMapping
  | blockEnd
  | flowSequence
  | flowSequenceEnd
  | flowMapping
  | flowMappingEnd
  /-- The dash in front of an item. -/
  | item
  | comma
  | key
  | value
  | aliasOf (name : String)
  | anchor (name : String)
  | tag (tag : Tag.Written)
  | scalar (plain : Bool) (text : String)
  deriving DecidableEq

namespace Token

/-- A number of a version, of at most nine digits. -/
def readVersionNumber (c : Cursor) : Option (Nat × Cursor) :=
  let digits := c.rest.takeWhile Char.isDigit
  if digits.isEmpty || 9 < digits.length then none
  else some (digits.foldl (fun n d => 10 * n + (d.toNat - 48)) 0, c.move digits.length)

def readVersion (c : Cursor) : Option (Token × Cursor) := do
  let (major, c) ← readVersionNumber (c.moveWhile isBlank)
  if c.rest.head? ≠ some '.' then none
  let (minor, c) ← readVersionNumber (c.move 1)
  return (.version major minor, c)

def readHandle (c : Cursor) : Option (Token × Cursor) := do
  let c := c.moveWhile isBlank
  let handle := Tag.handleChars c
  if handle.getLast? ≠ some '!' then none
  let c := c.move handle.length
  if !c.rest.head?.any isBlank then none
  let (start, c) ← Tag.readUri true [] (c.moveWhile isBlank)
  if atGap c.rest then return (.handle (String.ofList handle) start, c) else none

/-- Read a directive at its percent sign, up to the end of its line. -/
def readDirective (c : Cursor) : Option (Token × Cursor) := do
  let c := c.move 1
  let name := c.rest.takeWhile Tag.isNameChar
  let c := c.move name.length
  if !atGap c.rest then none
  let (token, c) ← match String.ofList name with
    | "YAML" => readVersion c
    | "TAG" => readHandle c
    | _ => none
  let c := c.moveWhile isBlank
  let c := if c.rest.head? = some '#' then c.moveWhile fun x => !isBreak x else c
  if !atLineEnd c.rest then none
  return (token, if c.rest.isEmpty then c else c.nextLine)

/-- Read the name of an anchor behind its indicator. A gap or one of a few marks has to follow. -/
def readName (c : Cursor) : Option (String × Cursor) :=
  let name := c.rest.takeWhile Tag.isNameChar
  let c := c.move name.length
  if !name.isEmpty && (atGap c.rest || c.rest.head?.any "?:,]\x7d%@\x60".toList.contains) then
    some (String.ofList name, c)
  else none

end Token

end ResourceTypes.Yaml
