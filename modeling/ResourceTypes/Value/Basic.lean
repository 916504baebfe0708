import ResourceTypes.Json.Basic

/-!
# Values of documents

What a document holds once its text is understood. Keys of mappings may be values of any kind, and
any value may carry a tag.
-/

namespace ResourceTypes

/-- A binary64 value by the decimal that names it. -/
inductive Real
  | finite (value : Decimal)
  | infinite (negative : Bool)
  | nan
  deriving DecidableEq

inductive Value
  | null
  | bool (value : Bool)
  | int (value : Int)
  | real (value : Real)
  | str (value : String)
  | seq (items : List Value)
  | map (entries : List (Value × Value))
  | tagged (tag : String) (value : Value)

instance : Inhabited Value := ⟨.null⟩

/-- The two zeros are one number, whatever their sign. -/
def Real.same : Real → Real → Bool
  | .finite x, .finite y => (x.isZero && y.isZero) || x = y
  | x, y => x = y

namespace Value

def untag : Value → Value
  | .tagged _ v => untag v
  | v => v

def str? : Value → Option String
  | .str s => some s
  | _ => none

/-- A tag may be written with or without a mark in front of it. -/
def bareTag (tag : String) : List Char :=
  match tag.toList with
  | '!' :: c :: rest => c :: rest
  | cs => cs

mutual

/-- Equality of values, in which the order of the entries of a mapping is of no account. -/
def same : Value → Value → Bool
  | .null, .null => true
  | .bool a, .bool b => a = b
  | .int a, .int b => a = b
  | .real a, .real b => a.same b
  | .str a, .str b => a = b
  | .seq a, .seq b => sameItems a b
  | .map a, .map b => a.length = b.length && sameEntries a b
  | .tagged s a, .tagged t b => bareTag s = bareTag t && same a b
  | _, _ => false

def sameItems : List Value → List Value → Bool
  | [], [] => true
  | a :: as, b :: bs => same a b && sameItems as bs
  | _, _ => false

def sameEntries : List (Value × Value) → List (Value × Value) → Bool
  | [], _ => true
  | (k, v) :: rest, entries =>
    entries.any (fun entry => same k entry.1 && same v entry.2) && sameEntries rest entries

end

def get? (key : String) : Value → Option Value
  | .map entries => (entries.find? fun entry => entry.1.str? = some key).map (·.2)
  | _ => none

mutual

def ofJson : Json → Value
  | .null => .null
  | .bool b => .bool b
  | .num (.int n) => .int n
  | .num (.float d) => .real (.finite d)
  | .str s => .str s
  | .arr items => .seq (ofItems items)
  | .obj fields => .map (ofFields fields)

def ofItems : List Json → List Value
  | [] => []
  | x :: xs => ofJson x :: ofItems xs

def ofFields : List (String × Json) → List (Value × Value)
  | [] => []
  | (k, v) :: fields => (.str k, ofJson v) :: ofFields fields

end

end Value

end ResourceTypes
