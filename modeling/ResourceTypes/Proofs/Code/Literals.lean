import Mathlib.Algebra.Group.Int.Defs
import ResourceTypes.Proofs.Code.Lines
import ResourceTypes.Proofs.Decimal

/-! # The literals of constants

A literal is read for its own sake: digits stand for an integer, which has to lie in the range of
its type, and a floating number shows a point or a power of ten. The type of strings owns its text
and has no literals at all. What constants are given reads as a literal of their type unless they
are strings or integers beyond the range.
-/

namespace ResourceTypes.Code

open Decimal

/-! ## Reading -/

def skipDigits (cs : List Char) : Option (List Char) :=
  if cs.head?.any Char.isDigit then some (cs.dropWhile Char.isDigit) else none

def isDigits (cs : List Char) : Bool :=
  skipDigits cs = some []

def readSign : List Char → Bool × List Char
  | '-' :: cs => (true, cs)
  | cs => (false, cs)

def readInteger (cs : List Char) : Option Int :=
  let (negative, digits) := readSign cs
  if isDigits digits then
    some (if negative then -Nat.ofDigitChars 10 digits 0 else Nat.ofDigitChars 10 digits 0)
  else none

def isPower : List Char → Bool
  | '+' :: cs => isDigits cs
  | cs => isDigits (readSign cs).2

/-- Whether a point, a power of ten or both make a floating number of the digits in front of
them. -/
def isFloatEnd : List Char → Bool
  | '.' :: [] => true
  | '.' :: rest => (skipDigits rest).any fun
      | [] => true
      | 'e' :: power => isPower power
      | _ => false
  | 'e' :: power => isPower power
  | _ => false

def isFloat (cs : List Char) : Bool :=
  (skipDigits (readSign cs).2).any isFloatEnd

/-- Whether an integer has a binary form of some width with a sign. -/
def fits (bits : Nat) (n : Int) : Bool :=
  -2 ^ (bits - 1) ≤ n && n < 2 ^ (bits - 1)

def isLiteral : TypeRef → List Char → Bool
  | .i32, cs => (readInteger cs).any (fits 32)
  | .i64, cs => (readInteger cs).any (fits 64)
  | .f32, cs => isFloat cs
  | .f64, cs => isFloat cs
  | .bool, cs => cs = "true".toList || cs = "false".toList
  | _, _ => false

/-- Whether a value is no integer beyond the range of a type. -/
def inRange : TypeRef → Json → Bool
  | .i32, .num (.int n) => fits 32 n
  | .i64, .num (.int n) => fits 64 n
  | _, _ => true

/-! ## Digits -/

theorem skipDigits_append {ds rest : List Char} (hne : ds ≠ []) (hd : ∀ d ∈ ds, d.isDigit = true)
    (hrest : ∀ c ∈ rest.head?, c.isDigit = false) : skipDigits (ds ++ rest) = some rest := by
  obtain ⟨d, ds, rfl⟩ := List.exists_cons_of_ne_nil hne
  have hhead : ((d :: ds ++ rest).head?.any Char.isDigit) = true := hd d List.mem_cons_self
  rw [skipDigits, if_pos hhead, List.dropWhile_append_of_pos hd]
  cases rest with
  | nil => rfl
  | cons c rest => rw [List.dropWhile_cons_of_neg (ne_true_of_eq_false (hrest c rfl))]

/-- Nothing follows where all characters are digits. -/
theorem skipDigits_digits {ds : List Char} (hne : ds ≠ []) (hd : ∀ d ∈ ds, d.isDigit = true) :
    skipDigits ds = some [] := by
  have h := @skipDigits_append ds [] hne hd (by simp)
  rwa [List.append_nil] at h

theorem isDigits_natChars (n : Nat) : isDigits (natChars n) = true :=
  decide_eq_true (skipDigits_digits (natChars_ne_nil n) fun _ => isDigit_of_mem_natChars)

theorem readSign_digit {d : Char} (hd : d.isDigit = true) (cs : List Char) :
    readSign (d :: cs) = (false, d :: cs) := by
  unfold readSign
  split
  next h =>
    cases h
    cases hd
  next => rfl

/-- Only a negative integer opens with a minus. -/
theorem readSign_intChars (n : Int) (rest : List Char) :
    readSign (intChars n ++ rest) = (decide (n < 0), natChars n.natAbs ++ rest) := by
  cases n with
  | ofNat k =>
      obtain ⟨d, ds, h⟩ := List.exists_cons_of_ne_nil (natChars_ne_nil k)
      have hd : d.isDigit = true := isDigit_of_mem_natChars (h ▸ List.mem_cons_self)
      have hnonneg : ¬Int.ofNat k < 0 := by simp
      rw [intChars, decide_eq_false hnonneg, Int.natAbs_ofNat', h, List.cons_append,
        readSign_digit hd]
  | negSucc k =>
      rw [decide_eq_true (Int.negSucc_lt_zero k)]
      rfl

/-- The text of an integer reads as the integer. -/
theorem readInteger_intChars (n : Int) : readInteger (intChars n) = some n := by
  have hsign := readSign_intChars n []
  have hvalue : Nat.ofDigitChars 10 (natChars n.natAbs) 0 = n.natAbs :=
    Nat.ofDigitChars_ten_toDigits
  rw [List.append_nil, List.append_nil] at hsign
  rw [readInteger, hsign]
  simp only [isDigits_natChars, if_true, hvalue, decide_eq_true_eq, Option.some.injEq]
  by_cases hn : n < 0
  · rw [if_pos hn]
    omega
  · rw [if_neg hn]
    omega

/-! ## Floating numbers -/

/-- Digits, a point and further digits make a floating number. -/
theorem skipDigits_any_point {whole fraction : List Char} (hne : whole ≠ [])
    (hw : ∀ c ∈ whole, c.isDigit = true) (hf : ∀ c ∈ fraction, c.isDigit = true) :
    (skipDigits (whole ++ '.' :: fraction)).any isFloatEnd = true := by
  rw [skipDigits_append hne hw (by simp), Option.any_some]
  cases fraction with
  | nil => rfl
  | cons c fraction =>
      rw [isFloatEnd, skipDigits_digits (List.cons_ne_nil c fraction) hf]
      · rfl
      · simp

theorem isPower_signed (point : Int) :
    isPower ((if 0 < point then ['+'] else []) ++ intChars (point - 1)) = true := by
  by_cases hp : 0 < point
  · obtain ⟨k, hk⟩ := Int.eq_ofNat_of_zero_le (show 0 ≤ point - 1 by omega)
    rw [if_pos hp, hk]
    exact isDigits_natChars k
  · obtain ⟨k, hk⟩ := Int.eq_negSucc_of_lt_zero (show point - 1 < 0 by omega)
    rw [if_neg hp, hk]
    exact isDigits_natChars (k + 1)

/-- Digits and a power of ten make a floating number, with a point behind the first of several. -/
theorem skipDigits_any_scientific {digits : List Char} (hne : digits ≠ [])
    (hd : ∀ d ∈ digits, d.isDigit = true) (point : Int) :
    (skipDigits (scientific digits point)).any isFloatEnd = true := by
  obtain ⟨first, rest, rfl⟩ := List.exists_cons_of_ne_nil hne
  obtain ⟨hfirst, hrest⟩ := List.forall_mem_cons.mp hd
  have hpower := isPower_signed point
  have hshape : scientific (first :: rest) point = [first] ++
      ((if rest = [] then [] else '.' :: rest) ++
        'e' :: ((if 0 < point then ['+'] else []) ++ intChars (point - 1))) := by
    cases rest <;> simp [scientific]
  rw [hshape]
  generalize (if 0 < point then ['+'] else []) ++ intChars (point - 1) = power at hpower ⊢
  have hsingle : ∀ d ∈ [first], d.isDigit = true := List.forall_mem_singleton.mpr hfirst
  by_cases hnil : rest = []
  · rw [if_pos hnil, List.nil_append, skipDigits_append (List.cons_ne_nil _ _) hsingle (by simp)]
    exact hpower
  · rw [if_neg hnil, skipDigits_append (List.cons_ne_nil _ _) hsingle (by simp), Option.any_some,
      List.cons_append, isFloatEnd, skipDigits_append hnil hrest (by simp)]
    · exact hpower
    · simp

theorem skipDigits_any_magnitude (d : Decimal) :
    (skipDigits d.magnitude).any isFloatEnd = true := by
  rcases magnitude_cases d with ⟨whole, fraction, h, hne, hw, hf, -⟩ | h
  · rw [h]
    exact skipDigits_any_point hne hw hf
  · rw [h]
    exact skipDigits_any_scientific (natChars_ne_nil _) (fun _ => isDigit_of_mem_natChars) _

theorem isFloat_chars (d : Decimal) : isFloat d.chars = true := by
  have hmagnitude := skipDigits_any_magnitude d
  rw [isFloat, chars_eq_signed, signed]
  by_cases hn : d.negative = true
  · rw [if_pos hn]
    exact hmagnitude
  · obtain ⟨c, rest, h, hc⟩ := magnitude_head d
    rw [if_neg hn, h, readSign_digit hc, ← h]
    exact hmagnitude

theorem isFloat_intChars (n : Int) : isFloat (intChars n ++ ".0".toList) = true := by
  rw [isFloat, readSign_intChars]
  exact skipDigits_any_point (natChars_ne_nil _) (fun _ => isDigit_of_mem_natChars)
    (List.all_eq_true.mp (by decide))

theorem isFloat_floatText (n : Json.Number) : isFloat (floatText n).toList = true := by
  cases n with
  | int n =>
      rw [floatText, String.toList_append, String.toList_ofList]
      exact isFloat_intChars n
  | float d =>
      rw [floatText, String.toList_ofList]
      exact isFloat_chars d

/-! ## Constants -/

/-- What a constant is given is a literal of its type unless it is a string or an integer beyond the
range. -/
theorem isLiteral_constLiteral {base : TypeRef} {v : Json} {literal : String}
    (h : constLiteral? base v = some literal) :
    isLiteral base literal.toList = (decide (base ≠ .str) && inRange base v) := by
  have hinteger : ∀ bits n, (readInteger (String.ofList (intChars n)).toList).any (fits bits) =
      fits bits n := by
    intro bits n
    rw [String.toList_ofList, readInteger_intChars, Option.any_some]
  unfold constLiteral? at h
  split at h
  · cases h
    exact hinteger 32 _
  · cases h
    exact hinteger 64 _
  · cases h
    exact isFloat_floatText _
  · cases h
    exact isFloat_floatText _
  next b =>
    cases h
    cases b <;> decide
  · cases h
    rfl
  · cases h

end ResourceTypes.Code
