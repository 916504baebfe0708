import ResourceTypes.Decimal.Basic

/-!
# Nearest binary64 values

Rounding of exact quotients to binary64, and the shortest decimal that rounds back to a given
value. All arithmetic is exact, on natural numbers.
-/

namespace ResourceTypes

/-- The value `significand * 2 ^ exponent`, with a significand below `2 ^ 53`. -/
structure Binary64 where
  significand : Nat
  exponent : Int
  deriving DecidableEq

namespace Binary64

/-- The integer nearest to `num / den`; a half goes to the even neighbour. -/
def roundQuotient (num den : Nat) : Nat :=
  let floor := num / den
  let rest := num % den
  if 2 * rest < den then floor
  else if den < 2 * rest then floor + 1
  else floor + floor % 2

/-- The quotient `num / den` over `base ^ power`, as a quotient of natural numbers. -/
def rescale (base num den : Nat) (power : Int) : Nat × Nat :=
  if 0 ≤ power then (num, den * Nat.pow base power.toNat)
  else (num * Nat.pow base (-power).toNat, den)

/-- The binary64 value nearest to `num / den`, or none when it lies beyond the largest. -/
def ofRatio? (num den : Nat) : Option Binary64 :=
  if num = 0 then some ⟨0, -1074⟩
  else
    let guess := max (-1074) ((num.log2 : Int) - den.log2 - 53)
    let scaled := rescale 2 num den guess
    let exponent := if scaled.1 / scaled.2 < Nat.pow 2 53 then guess else guess + 1
    let exact := rescale 2 num den exponent
    let rounded := roundQuotient exact.1 exact.2
    let value : Binary64 :=
      if rounded = Nat.pow 2 53 then ⟨Nat.pow 2 52, exponent + 1⟩ else ⟨rounded, exponent⟩
    if value.exponent ≤ 971 then some value else none

def ratio (x : Binary64) : Nat × Nat :=
  if 0 ≤ x.exponent then (x.significand * Nat.pow 2 x.exponent.toNat, 1)
  else (x.significand, Nat.pow 2 (-x.exponent).toNat)

/-- The product with `10 ^ power`. The power of ten and the product are each rounded. -/
def scaleUp? (x : Binary64) (power : Nat) : Option Binary64 := do
  let ten ← ofRatio? (Nat.pow 10 power) 1
  ofRatio? (x.ratio.1 * ten.ratio.1) (x.ratio.2 * ten.ratio.2)

/-- The quotient by `10 ^ power`. The power of ten and the quotient are each rounded. -/
def scaleDown? (x : Binary64) (power : Nat) : Option Binary64 := do
  let ten ← ofRatio? (Nat.pow 10 power) 1
  ofRatio? (x.ratio.1 * ten.ratio.2) (x.ratio.2 * ten.ratio.1)

/-- The reals that round to a value, in quarters of its last binary place. -/
structure Interval where
  low : Nat
  value : Nat
  high : Nat
  /-- Whether the ends round to the value too. -/
  closed : Bool
  exponent : Int

/-- Half a place on both sides, but a quarter below a power of two that is not the least. -/
def interval (x : Binary64) : Interval :=
  let below := if x.significand = Nat.pow 2 52 ∧ -1074 < x.exponent then 1 else 2
  ⟨4 * x.significand - below, 4 * x.significand, 4 * x.significand + 2,
    x.significand % 2 = 0, x.exponent - 2⟩

def Interval.over (i : Interval) (n : Nat) (power : Int) : Nat × Nat :=
  let binary := rescale 2 n 1 (-i.exponent)
  rescale 10 binary.1 binary.2 power

/-- Whether `count * 10 ^ power` rounds to the value. -/
def Interval.holds (i : Interval) (count : Nat) (power : Int) : Bool :=
  let low := i.over i.low power
  let high := i.over i.high power
  if i.closed then low.1 ≤ count * low.2 && count * high.2 ≤ high.1
  else low.1 < count * low.2 && count * high.2 < high.1

/-- The multiple of `10 ^ power` nearest to the value among those that round to it. -/
def Interval.nearest? (i : Interval) (power : Int) : Option Nat :=
  let value := i.over i.value power
  let floor := value.1 / value.2
  let down := 0 < floor && i.holds floor power
  let up := i.holds (floor + 1) power
  if down && up then some (roundQuotient value.1 value.2)
  else if down then some floor
  else if up then some (floor + 1)
  else none

/-- The coarsest grid of decimals, from `10 ^ power` downwards, that has a point in the interval. -/
def Interval.shortest (i : Interval) (negative : Bool) : Nat → Int → Decimal
  | 0, power => .ofScaled negative ((i.over i.value power).1 / (i.over i.value power).2) power
  | grids + 1, power =>
    match i.nearest? power with
    | some count => .ofScaled negative count power
    | none => i.shortest negative grids (power - 1)

def ceilingPower (x : Binary64) : Int :=
  let ratio := x.ratio
  if ratio.2 ≤ ratio.1 then (Decimal.natChars (ratio.1 / ratio.2)).length
  else 1 - (Decimal.natChars (ratio.2 / ratio.1)).length

/-- The decimal with the fewest digits that rounds to the value, and the nearest of those. No
value needs more than seventeen digits. -/
def shortest (x : Binary64) (negative : Bool) : Decimal :=
  if x.significand = 0 then .ofScaled negative 0 0
  else x.interval.shortest negative 20 x.ceilingPower

end Binary64

end ResourceTypes
