import ResourceTypes.Decimal.Basic

/-!
# Numbered attempts

When a name is taken, a number makes it a different one. Attempts are tried in order until one is
free. Among distinct attempts, one more than there are taken names always holds a free one.
-/

namespace ResourceTypes.Naming

/-- The first attempt from `n` on that is not taken. The last of the tries is not tested. -/
def firstFreeFrom (taken : List String) (attempt : Nat → String) : Nat → Nat → String
  | 0, n => attempt n
  | tries + 1, n =>
    if attempt n ∈ taken then firstFreeFrom taken attempt tries (n + 1) else attempt n

def firstFree (taken : List String) (attempt : Nat → String) : String :=
  firstFreeFrom taken attempt taken.length 0

/-- The name itself at first, then the name with the numbers from two on. -/
def numbered (name : String) : Nat → String
  | 0 => name
  | n + 1 => name ++ String.ofList (Decimal.natChars (n + 2))

end ResourceTypes.Naming
