/-!
# Decimal numbers in lowest form

A decimal is a sign, an integer and a power of ten, and the integer does not end in a zero.
The form is unique, so a text that shows all three parts determines the number.
-/

namespace ResourceTypes

/-- The number `digits * 10 ^ exponent`, negated when `negative` holds. -/
structure Decimal where
  negative : Bool
  digits : Nat
  exponent : Int
  lowest : digits % 10 ≠ 0 ∨ (digits = 0 ∧ exponent = 0)
  deriving DecidableEq

namespace Decimal

/-- Move the zeros at the end of `digits` into the exponent. -/
def reduce (digits : Nat) (exponent : Int) : Nat × Int :=
  if digits ≠ 0 ∧ digits % 10 = 0 then reduce (digits / 10) (exponent + 1)
  else (digits, exponent)
termination_by digits
decreasing_by omega

theorem reduce_fst_mod_ten_ne_zero (digits : Nat) (exponent : Int) (h : digits ≠ 0) :
    (reduce digits exponent).1 % 10 ≠ 0 := by
  fun_induction reduce digits exponent with
  | case1 digits exponent hd ih => exact ih (by omega)
  | case2 digits exponent hd => simp_all

def ofScaled (negative : Bool) (digits : Nat) (exponent : Int) : Decimal :=
  if h : digits = 0 then ⟨negative, 0, 0, by simp⟩
  else
    let lowest := reduce digits exponent
    ⟨negative, lowest.1, lowest.2, .inl (reduce_fst_mod_ten_ne_zero digits exponent h)⟩

def isZero (d : Decimal) : Bool :=
  d.digits = 0

def natChars (n : Nat) : List Char :=
  Nat.toDigits 10 n

def intChars : Int → List Char
  | .ofNat n => natChars n
  | .negSucc n => '-' :: natChars (n + 1)

/-- Digits with a point after the first `point` of them. Zeros fill the places that the digits do
not reach, and a digit stands on both sides of the point. -/
def positional (digits : List Char) (point : Int) : List Char :=
  if point ≤ 0 then
    '0' :: '.' :: List.replicate (-point).toNat '0' ++ digits
  else if digits.length ≤ point.toNat then
    digits ++ List.replicate (point.toNat - digits.length) '0' ++ ['.', '0']
  else digits.take point.toNat ++ '.' :: digits.drop point.toNat

/-- One digit before the point, and the power of ten with its sign after an `e`. A single digit
takes no point. -/
def scientific (digits : List Char) (point : Int) : List Char :=
  let mantissa := match digits with
    | first :: second :: rest => first :: '.' :: second :: rest
    | single => single
  mantissa ++ 'e' :: (if 0 < point then ['+'] else []) ++ intChars (point - 1)

/-- Where the point stands, counted from the first digit. -/
def point (d : Decimal) : Int :=
  (natChars d.digits).length + d.exponent

def signed (d : Decimal) (magnitude : List Char) : List Char :=
  if d.negative then '-' :: magnitude else magnitude

/-- Without a power of ten, however long the text becomes. -/
def plainChars (d : Decimal) : List Char :=
  d.signed (positional (natChars d.digits) d.point)

/-- Positional from `0.00001` up to sixteen digits before the point, scientific elsewhere. -/
def chars (d : Decimal) : List Char :=
  if -5 < d.point ∧ d.point ≤ 16 then d.plainChars
  else d.signed (scientific (natChars d.digits) d.point)

end Decimal

end ResourceTypes
