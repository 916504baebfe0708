import ResourceTypes.Yaml.Cursor
import ResourceTypes.Yaml.Quoted

/-!
# Tags

A tag is written with a handle, which stands for a beginning that a directive declares, or verbatim.
Its characters may be escaped byte by byte, so a tag is a sequence of bytes; it ends at a zero byte.
-/

namespace ResourceTypes.Yaml

inductive Tag
  | null
  | boolean
  | integer
  | floating
  /-- A tag of the document's own, which stays with the value. -/
  | named (name : String)
  /-- A tag of the document's own that is no text. -/
  | unreadable
  | other
  deriving DecidableEq

namespace Tag

def bytesOf (s : String) : List UInt8 :=
  s.toUTF8.toList

def commonBytes : List UInt8 :=
  bytesOf "tag:yaml.org,2002:"

/-- The exclamation mark in front of the tag does not belong to its name, unless it is all there
is. -/
def ofBytes (bytes : List UInt8) : Tag :=
  match bytes with
  | 33 :: rest =>
    match String.fromUTF8? ⟨(if rest.isEmpty then bytes else rest).toArray⟩ with
    | some name => .named name
    | none => .unreadable
  | _ =>
    if bytes = commonBytes ++ bytesOf "null" then .null
    else if bytes = commonBytes ++ bytesOf "bool" then .boolean
    else if bytes = commonBytes ++ bytesOf "int" then .integer
    else if bytes = commonBytes ++ bytesOf "float" then .floating
    else .other

def isNameChar (c : Char) : Bool :=
  c.isAlphanum || c = '_' || c = '-'

/-- The characters of a tag behind its handle. A verbatim tag may hold punctuation too. -/
def isTagChar (verbatim : Bool) (c : Char) : Bool :=
  isNameChar c || ";/?:@&=+$.%!~*'()".toList.contains c ||
    (verbatim && (c = ',' || c = '[' || c = ']'))

def escapedByte : List Char → Option Nat
  | '%' :: a :: b :: _ => do return 16 * (← Quoted.hexValue? a) + (← Quoted.hexValue? b)
  | _ => none

/-- How many bytes a character takes, by its leading byte. -/
def width (lead : Nat) : Option Nat :=
  if lead < 0x80 then some 1
  else if 0xC0 ≤ lead && lead < 0xE0 then some 2
  else if 0xE0 ≤ lead && lead < 0xF0 then some 3
  else if 0xF0 ≤ lead && lead < 0xF8 then some 4
  else none

def furtherBytes : Nat → List Char → Option (List UInt8)
  | 0, _ => some []
  | count + 1, cs => do
    let b ← escapedByte cs
    if 0x80 ≤ b && b < 0xC0 then return b.toUInt8 :: (← furtherBytes count (cs.drop 3))
    else none

/-- The bytes of one escaped character. -/
def escapedBytes (cs : List Char) : Option (List UInt8) := do
  let lead ← escapedByte cs
  let width ← width lead
  return lead.toUInt8 :: (← furtherBytes (width - 1) (cs.drop 3))

def readChars (verbatim : Bool) : Nat → List Char → Option (List UInt8 × Nat)
  | 0, _ => some ([], 0)
  | _ + 1, [] => some ([], 0)
  | steps + 1, c :: rest =>
    if !isTagChar verbatim c then some ([], 0)
    else if c = '%' then do
      let bytes ← escapedBytes (c :: rest)
      let (more, count) ← readChars verbatim steps (rest.drop (3 * bytes.length - 1))
      return (bytes ++ more, count + 3 * bytes.length)
    else do
      let (more, count) ← readChars verbatim steps rest
      return (c.toNat.toUInt8 :: more, count + 1)

def untilZero (bytes : List UInt8) : List UInt8 :=
  bytes.takeWhile (· ≠ 0)

/-- Tag characters at the cursor, of which there has to be one unless some went in front. -/
def readUri (verbatim : Bool) (before : List Char) (c : Cursor) :
    Option (List UInt8 × Cursor) := do
  let (bytes, count) ← readChars verbatim (c.rest.takeWhile (isTagChar verbatim)).length c.rest
  if before.isEmpty && count = 0 then none
  let head := before.drop 1
  return (untilZero (head.map (·.toNat.toUInt8) ++ bytes), c.move count)

/-- A handle, or the beginning of a tag without one: an exclamation mark, name characters, and a
second exclamation mark where one follows. -/
def handleChars (c : Cursor) : List Char :=
  match c.rest with
  | '!' :: rest =>
    let name := rest.takeWhile isNameChar
    if (rest.drop name.length).head? = some '!' then '!' :: name ++ ['!'] else '!' :: name
  | _ => []

/-- A tag as it is written. Without a handle the bytes are the whole tag. -/
structure Written where
  handle : Option String
  bytes : List UInt8
  deriving DecidableEq

def readWritten (c : Cursor) : Option (Written × Cursor) := do
  if (c.rest.drop 1).head? = some '<' then
    let (bytes, c) ← readUri true [] (c.move 2)
    if c.rest.head? = some '>' then return (⟨none, bytes⟩, c.move 1) else none
  else
    let handle := handleChars c
    let c := c.move handle.length
    if 1 < handle.length && handle.getLast? = some '!' then
      let (bytes, c) ← readUri false [] c
      return (⟨some (String.ofList handle), bytes⟩, c)
    else
      let (bytes, c) ← readUri false handle c
      return (if bytes.isEmpty then ⟨none, [33]⟩ else ⟨some "!", bytes⟩, c)

/-- Read a tag. A gap has to follow, or in a flow collection a comma. -/
def read (flow : Bool) (c : Cursor) : Option (Written × Cursor) := do
  let (tag, c) ← readWritten c
  if atGap c.rest || (flow && c.rest.head? = some ',') then return (tag, c) else none

abbrev Handles := List (String × List UInt8)

def Handles.standard : Handles :=
  [("!", [33]), ("!!", commonBytes)]

def Written.resolve (tag : Written) (handles : Handles) : Option Tag :=
  match tag.handle with
  | none => some (ofBytes tag.bytes)
  | some handle => (handles.lookup handle).map fun start => ofBytes (start ++ tag.bytes)

end Tag

end ResourceTypes.Yaml
