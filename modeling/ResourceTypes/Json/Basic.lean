import ResourceTypes.Decimal.Basic
import ResourceTypes.Keyed

/-!
# JSON values

Objects keep their fields in the order in which they were written. `canonical` sorts them at every
depth, so that two values that differ only in that order have one form.
-/

namespace ResourceTypes

/-- An integer stays an integer. Any other number is the decimal that names its binary64 value. -/
inductive Json.Number
  | int (value : Int)
  | float (value : Decimal)
  deriving DecidableEq

inductive Json
  | null
  | bool (value : Bool)
  | num (value : Json.Number)
  | str (value : String)
  | arr (items : List Json)
  | obj (fields : List (String × Json))

instance : Inhabited Json := ⟨.null⟩

namespace Json

def ofNat (n : Nat) : Json :=
  .num (.int n)

def ofOption : Option String → Json
  | none => .null
  | some s => .str s

def strings (xs : List String) : Json :=
  .arr (xs.map .str)

def isNull : Json → Bool
  | .null => true
  | _ => false

def isStr : Json → Bool
  | .str _ => true
  | _ => false

def isBool : Json → Bool
  | .bool _ => true
  | _ => false

def isNum : Json → Bool
  | .num _ => true
  | _ => false

def isInt : Json → Bool
  | .num (.int _) => true
  | _ => false

def str? : Json → Option String
  | .str s => some s
  | _ => none

def arr? : Json → Option (List Json)
  | .arr xs => some xs
  | _ => none

def get? (key : String) : Json → Option Json
  | .obj fields => fields.lookup key
  | _ => none

mutual

def canonical : Json → Json
  | .null => .null
  | .bool b => .bool b
  | .num n => .num n
  | .str s => .str s
  | .arr items => .arr (canonicalItems items)
  | .obj fields => .obj (Keyed.sort (canonicalFields fields))

def canonicalItems : List Json → List Json
  | [] => []
  | x :: xs => canonical x :: canonicalItems xs

def canonicalFields : List (String × Json) → List (String × Json)
  | [] => []
  | (k, v) :: fields => (k, canonical v) :: canonicalFields fields

end

end Json

end ResourceTypes
