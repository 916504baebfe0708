/-!
# Characters of a source

A source is UTF-8 text in which no control character stands except the tabulator and the line ends.
It is examined in blocks, and a block with a fault in it is not read at all.
-/

namespace ResourceTypes.Yaml

structure Source where
  chars : List Char
  /-- Whether something that cannot be read follows the characters. -/
  faulty : Bool

namespace Source

def isAllowed (n : Nat) : Bool :=
  n = 9 || n = 10 || n = 13 || (32 ≤ n && n ≤ 126) || n = 0x85 || (0xA0 ≤ n && n ≤ 0xD7FF) ||
    (0xE000 ≤ n && n ≤ 0xFFFD) || (0x10000 ≤ n && n ≤ 0x10FFFF)

inductive Lead
  | char (c : Char) (rest : List UInt8)
  /-- A character may begin here, but bytes are missing. -/
  | short
  | fault

/-- The bytes behind a leading byte: how many there are, and the bits of the leading byte. -/
def leadBits (b : Nat) : Option (Nat × Nat) :=
  if b < 0x80 then some (0, b)
  else if 0xC0 ≤ b && b < 0xE0 then some (1, b - 0xC0)
  else if 0xE0 ≤ b && b < 0xF0 then some (2, b - 0xE0)
  else if 0xF0 ≤ b && b < 0xF8 then some (3, b - 0xF0)
  else none

def appendBits (value : Nat) : List UInt8 → Option Nat
  | [] => some value
  | b :: rest =>
    let n := b.toNat
    if 0x80 ≤ n && n < 0xC0 then appendBits (64 * value + (n - 0x80)) rest else none

/-- The least character that needs this many further bytes. -/
def leastOfWidth : Nat → Nat
  | 0 => 0
  | 1 => 0x80
  | 2 => 0x800
  | _ => 0x10000

def lead : List UInt8 → Lead
  | [] => .short
  | b :: rest =>
    match leadBits b.toNat with
    | none => .fault
    | some (width, bits) =>
      let further := rest.take width
      if further.length < width then .short
      else match appendBits bits further with
        | none => .fault
        | some n =>
          if leastOfWidth width ≤ n && isAllowed n then .char (Char.ofNat n) (rest.drop width)
          else .fault

/-- The characters of a block and the bytes of an unfinished character at its end. The length of the
block bounds the number of characters. -/
def readBlock : Nat → List Char → List UInt8 → Option (List Char × List UInt8)
  | 0, taken, rest => some (taken.reverse, rest)
  | _ + 1, taken, [] => some (taken.reverse, [])
  | steps + 1, taken, bytes =>
    match lead bytes with
    | .char c rest => readBlock steps (c :: taken) rest
    | .short => some (taken.reverse, bytes)
    | .fault => none

def blockSize : Nat :=
  16384

/-- Read block by block. An unfinished character is the beginning of the next block. -/
def readBlocks : Nat → List Char → List UInt8 → Source
  | 0, taken, _ => ⟨taken, true⟩
  | _ + 1, taken, [] => ⟨taken, false⟩
  | steps + 1, taken, bytes =>
    match readBlock blockSize [] (bytes.take blockSize) with
    | none | some ([], _) => ⟨taken, true⟩
    | some (chars, unfinished) =>
      readBlocks steps (taken ++ chars) (unfinished ++ bytes.drop blockSize)

/-- Every form of a line end becomes a newline, except the line and the paragraph separator. -/
def unifyBreaks : List Char → List Char
  | [] => []
  | '\r' :: '\n' :: rest => '\n' :: unifyBreaks rest
  | c :: rest => (if c = '\r' || c = '\u0085' then '\n' else c) :: unifyBreaks rest

def ofBytes (bytes : List UInt8) : Source :=
  let source := readBlocks (bytes.length + 1) [] bytes
  { source with chars := unifyBreaks source.chars }

end Source

end ResourceTypes.Yaml
