import ResourceTypes.Decimal.Nearest
import ResourceTypes.Value.Basic
import ResourceTypes.Yaml.Tag

/-!
# Values of scalars

A plain scalar is null, a boolean, an integer or a real if it is written like one, and otherwise a
string. A quoted scalar is a string unless its tag says more.
-/

namespace ResourceTypes.Yaml.Scalar

def isNull (text : String) : Bool :=
  ["~", "null", "Null", "NULL"].contains text

def boolean? (text : String) : Option Bool :=
  if ["true", "True", "TRUE"].contains text then some true
  else if ["false", "False", "FALSE"].contains text then some false
  else none

def digits? (base : Nat) (cs : List Char) : Option Nat :=
  if cs.isEmpty then none
  else cs.foldlM (fun n c => do
    let d ← Quoted.hexValue? c
    if d < base then some (base * n + d) else none) 0

/-- Whether a text is a number but for a zero in front of it. -/
def isZeroPadded (cs : List Char) : Bool :=
  let unsigned := match cs with
    | '+' :: rest => rest
    | '-' :: rest => rest
    | rest => rest
  match unsigned with
  | '0' :: d :: rest => (d :: rest).all Char.isDigit
  | _ => false

/-- Decimal digits without a zero in front, or digits to the base that their beginning names. -/
def natural? : List Char → Option Nat
  | '0' :: 'x' :: rest => digits? 16 rest
  | '0' :: 'o' :: rest => digits? 8 rest
  | '0' :: 'b' :: rest => digits? 2 rest
  | cs => if isZeroPadded cs then none else digits? 10 cs

def integer? (cs : List Char) : Option Int :=
  match cs with
  | '+' :: rest => (natural? rest).map Int.ofNat
  | '-' :: rest => (natural? rest).map fun n => -Int.ofNat n
  | rest => (natural? rest).map Int.ofNat

/-- Integers of up to 128 bits are integers, but those beyond 64 bits are no values. -/
def integerValue? (cs : List Char) : Option (Option Value) := do
  let n ← integer? cs
  if -Int.pow 2 63 ≤ n && n < Int.pow 2 64 then return some (.int n)
  else if -Int.pow 2 127 ≤ n && n < Int.pow 2 128 then return none
  else none

def nearest? (negative : Bool) (digits : Nat) (power : Int) : Option Decimal :=
  let exact := Decimal.ofScaled negative digits power
  if exact.isZero || exact.point < -330 then some (.ofScaled negative 0 0)
  else if 330 < exact.point then none
  else
    let value := if 0 ≤ exact.exponent then
        Binary64.ofRatio? (exact.digits * Nat.pow 10 exact.exponent.toNat) 1
      else Binary64.ofRatio? exact.digits (Nat.pow 10 (-exact.exponent).toNat)
    value.map (·.shortest negative)

def power? : List Char → Option Int
  | [] => some 0
  | c :: rest =>
    if c = 'e' || c = 'E' then
      match rest with
      | '-' :: cs => (digits? 10 cs).map fun n => -Int.ofNat n
      | '+' :: cs => (digits? 10 cs).map Int.ofNat
      | cs => (digits? 10 cs).map Int.ofNat
    else none

/-- Digits with a point at any place among them, or none, and a power of ten. -/
def magnitude? (negative : Bool) (cs : List Char) : Option Decimal := do
  let whole := cs.takeWhile Char.isDigit
  let rest := cs.drop whole.length
  let (fraction, rest) := match rest with
    | '.' :: rest =>
      let fraction := rest.takeWhile Char.isDigit
      (fraction, rest.drop fraction.length)
    | rest => ([], rest)
  let digits ← digits? 10 (whole ++ fraction)
  nearest? negative digits ((← power? rest) - fraction.length)

def real? (cs : List Char) : Option Real :=
  let text := String.ofList cs
  if [".inf", ".Inf", ".INF", "+.inf", "+.Inf", "+.INF"].contains text then some (.infinite false)
  else if ["-.inf", "-.Inf", "-.INF"].contains text then some (.infinite true)
  else if [".nan", ".NaN", ".NAN"].contains text then some .nan
  else (match cs with
    | '+' :: rest => magnitude? false rest
    | '-' :: rest => magnitude? true rest
    | rest => magnitude? false rest).map .finite

def plainValue (text : String) : Option Value :=
  let cs := text.toList
  if text.isEmpty || isNull text then some .null
  else match boolean? text with
    | some b => some (.bool b)
    | none =>
      match integerValue? cs with
      | some value => value
      | none =>
        match if isZeroPadded cs then none else real? cs with
        | some x => some (.real x)
        | none => some (.str text)

def untaggedValue (plain : Bool) (text : String) : Option Value :=
  if plain then plainValue text else some (.str text)

def value (tag : Option Tag) (plain : Bool) (text : String) : Option Value :=
  match tag with
  | none | some .unreadable => untaggedValue plain text
  | some (.named name) => (untaggedValue plain text).map (.tagged name)
  | some .null => if isNull text then some .null else none
  | some .boolean => (boolean? text).map .bool
  | some .integer => (integerValue? text.toList).join
  | some .floating => (real? text.toList).map .real
  | some .other => some (.str text)

end ResourceTypes.Yaml.Scalar
