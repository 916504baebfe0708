import ResourceTypes.Decimal.Nearest
import ResourceTypes.Json.Basic

/-!
# Reading JSON text

Reading accepts one value between blanks. A repeated key of an object replaces the earlier value.
Numbers outside the 64-bit integers, and every number with a fraction or a power of ten, become
binary64 values; their digits are rounded first and scaled by a rounded power of ten afterwards.
-/

namespace ResourceTypes.Json

def isBlank (c : Char) : Bool :=
  c = ' ' || c = '\n' || c = '\r' || c = '\t'

def skipBlanks (cs : List Char) : List Char :=
  cs.dropWhile isBlank

def readDigits (value : Nat) : List Char → Nat × List Char
  | [] => (value, [])
  | c :: rest =>
    if c.isDigit then readDigits (10 * value + (c.toNat - 48)) rest else (value, c :: rest)

/-- Digits that may still be appended to a 64-bit significand. -/
structure Significand where
  value : Nat
  /-- Digits that no longer fit. -/
  dropped : Nat
  /-- All digits read. -/
  count : Nat

/-- Take digits while the significand fits into 64 bits; later digits are only counted. -/
def Significand.read (s : Significand) : List Char → Significand × List Char
  | [] => (s, [])
  | c :: rest =>
    if c.isDigit then
      let next := 10 * s.value + (c.toNat - 48)
      if s.dropped = 0 && next < Nat.pow 2 64 then
        Significand.read ⟨next, 0, s.count + 1⟩ rest
      else Significand.read ⟨s.value, s.dropped + 1, s.count + 1⟩ rest
    else (s, c :: rest)

/-- The value of a significand times a power of ten, or none beyond the largest value. Powers below
the least are taken in steps. -/
def scaled? (x : Binary64) (power : Int) : Nat → Option Binary64
  | 0 => some x
  | steps + 1 =>
    if x.significand = 0 then some x
    else if 308 < power then none
    else if 0 ≤ power then x.scaleUp? power.toNat
    else if -308 ≤ power then x.scaleDown? (-power).toNat
    else do scaled? (← x.scaleDown? 308) (power + 308) steps

def readPower (cs : List Char) : Option (Option Int × List Char) :=
  match cs with
  | c :: rest =>
    if c = 'e' || c = 'E' then
      let signed := match rest with
        | '+' :: digits => (false, digits)
        | '-' :: digits => (true, digits)
        | digits => (false, digits)
      match signed.2 with
      | d :: _ =>
        if d.isDigit then
          let (value, rest) := readDigits 0 signed.2
          some (some (if signed.1 then -value else value), rest)
        else none
      | [] => none
    else some (none, cs)
  | [] => some (none, [])

def readNumber (negative : Bool) (cs : List Char) : Option (Number × List Char) := do
  let (whole, rest) := Significand.read ⟨0, 0, 0⟩ cs
  if whole.count = 0 then none
  if cs.head? = some '0' && 1 < whole.count then none
  let (fraction, rest) ← match rest with
    | '.' :: digits =>
      let (fraction, rest) := Significand.read ⟨whole.value, 0, 0⟩ digits
      if fraction.count = 0 then none else some (some fraction, rest)
    | rest => some (none, rest)
  let (power, rest) ← readPower rest
  if fraction.isNone && power.isNone && whole.dropped = 0 &&
      !(negative && (whole.value = 0 || Nat.pow 2 63 < whole.value)) then
    return (.int (if negative then -whole.value else whole.value), rest)
  let significand := (fraction.map (·.value)).getD whole.value
  let places := (fraction.map fun f => f.count - f.dropped).getD 0
  let exponent : Int := whole.dropped - places + power.getD 0
  let value ← scaled? (← Binary64.ofRatio? significand 1) exponent 4
  return (.float (value.shortest negative), rest)

def readHex (value : Nat) : Nat → List Char → Option (Nat × List Char)
  | 0, cs => some (value, cs)
  | n + 1, c :: rest =>
    let digit :=
      if c.isDigit then some (c.toNat - 48)
      else if 'a' ≤ c && c ≤ 'f' then some (c.toNat - 87)
      else if 'A' ≤ c && c ≤ 'F' then some (c.toNat - 55)
      else none
    digit.bind fun d => readHex (16 * value + d) n rest
  | _ + 1, [] => none

/-- The character of an escape, after its backslash. Two escapes that name surrogates in a row stand
for one character. -/
def readEscape : List Char → Option (Char × List Char)
  | '"' :: rest => some ('"', rest)
  | '\\' :: rest => some ('\\', rest)
  | '/' :: rest => some ('/', rest)
  | 'b' :: rest => some ('\x08', rest)
  | 'f' :: rest => some ('\x0c', rest)
  | 'n' :: rest => some ('\n', rest)
  | 'r' :: rest => some ('\r', rest)
  | 't' :: rest => some ('\t', rest)
  | 'u' :: rest => do
    let (high, rest) ← readHex 0 4 rest
    if 0xD800 ≤ high && high < 0xDC00 then
      match rest with
      | '\\' :: 'u' :: rest =>
        let (low, rest) ← readHex 0 4 rest
        if 0xDC00 ≤ low && low < 0xE000 then
          some (Char.ofNat (0x10000 + (high - 0xD800) * 0x400 + (low - 0xDC00)), rest)
        else none
      | _ => none
    else if 0xDC00 ≤ high && high < 0xE000 then none
    else some (Char.ofNat high, rest)
  | _ => none

/-- The characters up to the closing quote. Every step takes one character or one escape, so the
length of the text bounds their number. -/
def readString : Nat → List Char → List Char → Option (String × List Char)
  | 0, _, _ => none
  | _ + 1, _, [] => none
  | _ + 1, taken, '"' :: rest => some (String.ofList taken.reverse, rest)
  | steps + 1, taken, '\\' :: rest => do
    let (c, rest) ← readEscape rest
    readString steps (c :: taken) rest
  | steps + 1, taken, c :: rest =>
    if c.toNat < 32 then none else readString steps (c :: taken) rest

def readKey (cs : List Char) : Option (String × List Char) :=
  match skipBlanks cs with
  | '"' :: rest => readString (rest.length + 1) [] rest
  | _ => none

def expect (c : Char) (cs : List Char) : Option (List Char) :=
  match skipBlanks cs with
  | d :: rest => if c = d then some rest else none
  | [] => none

mutual

/-- One value. Every call takes at least one character. -/
def readValue : Nat → List Char → Option (Json × List Char)
  | 0, _ => none
  | steps + 1, cs =>
    match skipBlanks cs with
    | 'n' :: 'u' :: 'l' :: 'l' :: rest => some (.null, rest)
    | 't' :: 'r' :: 'u' :: 'e' :: rest => some (.bool true, rest)
    | 'f' :: 'a' :: 'l' :: 's' :: 'e' :: rest => some (.bool false, rest)
    | '"' :: rest => (readString (rest.length + 1) [] rest).map fun (s, rest) => (.str s, rest)
    | '[' :: rest =>
      match skipBlanks rest with
      | ']' :: rest => some (.arr [], rest)
      | rest => readItems steps [] rest
    | '\x7b' :: rest =>
      match skipBlanks rest with
      | '\x7d' :: rest => some (.obj [], rest)
      | rest => readFields steps [] rest
    | '-' :: rest => (readNumber true rest).map fun (n, rest) => (.num n, rest)
    | rest => (readNumber false rest).map fun (n, rest) => (.num n, rest)

def readItems : Nat → List Json → List Char → Option (Json × List Char)
  | 0, _, _ => none
  | steps + 1, items, cs => do
    let (item, rest) ← readValue steps cs
    match skipBlanks rest with
    | ',' :: rest => readItems steps (item :: items) rest
    | ']' :: rest => some (.arr (item :: items).reverse, rest)
    | _ => none

def readFields : Nat → List (String × Json) → List Char → Option (Json × List Char)
  | 0, _, _ => none
  | steps + 1, fields, cs => do
    let (key, rest) ← readKey cs
    let (value, rest) ← readValue steps (← expect ':' rest)
    let fields := Keyed.set key value fields
    match skipBlanks rest with
    | ',' :: rest => readFields steps fields rest
    | '\x7d' :: rest => some (.obj fields, rest)
    | _ => none

end

def parse? (s : String) : Option Json := do
  let cs := s.toList
  let (value, rest) ← readValue (cs.length + 1) cs
  if (skipBlanks rest).isEmpty then some value else none

end ResourceTypes.Json
