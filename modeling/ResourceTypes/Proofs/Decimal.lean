import Mathlib.Algebra.Group.Nat.Defs
import Mathlib.Data.List.Basic
import Mathlib.Tactic.Tauto
import ResourceTypes.Json.Text

/-! # The text of a number determines the number

A positional text is split at its point and a scientific one at its `e`. What stands on both sides
gives back the digits and the power of ten, and the lowest form of a decimal is unique.
-/

namespace ResourceTypes

namespace Decimal

/-! ## Natural numbers and integers -/

theorem natChars_injective {m n : Nat} (h : natChars m = natChars n) : m = n := by
  have hv := congrArg (fun digits => Nat.ofDigitChars 10 digits 0) h
  simpa [natChars] using hv

theorem natChars_ne_nil (n : Nat) : natChars n ≠ [] := by
  simp [natChars]

theorem isDigit_of_mem_natChars {n : Nat} {c : Char} (h : c ∈ natChars n) : c.isDigit :=
  Nat.isDigit_of_mem_toDigits (by decide) (by decide) h

theorem not_mem_natChars {c : Char} (n : Nat) (hc : c.isDigit = false) : c ∉ natChars n := by
  intro h
  simp [isDigit_of_mem_natChars h] at hc

theorem intChars_injective {m n : Int} (h : intChars m = intChars n) : m = n := by
  have hm (k : Nat) : '-' ∉ natChars k := not_mem_natChars k (by decide)
  cases m with
  | ofNat m =>
      cases n with
      | ofNat n => rw [natChars_injective h]
      | negSucc n => exact (hm m (by simp only [intChars] at h; simp [h])).elim
  | negSucc m =>
      cases n with
      | ofNat n => exact (hm n (by simp only [intChars] at h; simp [← h])).elim
      | negSucc n =>
          have := natChars_injective (List.cons.inj h).2
          omega

theorem not_mem_intChars {c : Char} (n : Int) (hc : c.isDigit = false) (hm : c ≠ '-') :
    c ∉ intChars n := by
  cases n with
  | ofNat n => exact not_mem_natChars n hc
  | negSucc n => simp [intChars, hm, not_mem_natChars (n + 1) hc]

/-! ## Lowest forms -/

/-- A number that does not end in a zero and its power of ten are known by their product. -/
theorem lowest_unique {m n a b : Nat} (hm : m % 10 ≠ 0) (hn : n % 10 ≠ 0)
    (h : m * 10 ^ a = n * 10 ^ b) : m = n ∧ a = b := by
  induction a generalizing b with
  | zero =>
      cases b with
      | zero => simpa using h
      | succ b =>
          rw [Nat.pow_succ, ← Nat.mul_assoc] at h
          omega
  | succ a ih =>
      cases b with
      | zero =>
          rw [Nat.pow_succ, ← Nat.mul_assoc] at h
          omega
      | succ b =>
          simp only [Nat.pow_succ, ← Nat.mul_assoc] at h
          have hs : m * 10 ^ a = n * 10 ^ b := by omega
          have := ih hs
          omega

/-- Decimals of one sign are equal when their digits times the same shift of their powers are. -/
theorem eq_of_shifted {x y : Decimal} (hn : x.negative = y.negative) (shift : Nat)
    (hx : 0 ≤ x.exponent + shift) (hy : 0 ≤ y.exponent + shift)
    (h : x.digits * 10 ^ (x.exponent + shift).toNat =
      y.digits * 10 ^ (y.exponent + shift).toNat) : x = y := by
  obtain ⟨negative, m, a, hm⟩ := x
  obtain ⟨_, n, b, hn'⟩ := y
  dsimp only at hn hx hy h
  subst hn
  have hp (k : Nat) : 10 ^ k ≠ 0 := Nat.pos_iff_ne_zero.mp (Nat.pow_pos (by decide))
  rcases hm with hm | ⟨rfl, rfl⟩
  · rcases hn' with hn | ⟨rfl, rfl⟩
    · obtain ⟨rfl, he⟩ := lowest_unique hm hn h
      have : a = b := by omega
      subst this
      rfl
    · rw [Nat.zero_mul] at h
      simp [(Nat.mul_eq_zero.mp h).resolve_right (hp _)] at hm
  · rcases hn' with hn | ⟨rfl, rfl⟩
    · rw [Nat.zero_mul] at h
      simp [(Nat.mul_eq_zero.mp h.symm).resolve_right (hp _)] at hn
    · rfl

/-! ## Positional texts -/

/-- A positional text for a number and a power of ten: the digits on both sides of the point, read
as one number, are the number times a power that makes up for the places behind the point. -/
def Positional (text : List Char) (n : Nat) (exponent : Int) : Prop :=
  ∃ whole fraction, text = whole ++ '.' :: fraction ∧ whole ≠ [] ∧
    (∀ c ∈ whole, c.isDigit) ∧ (∀ c ∈ fraction, c.isDigit) ∧ 0 ≤ exponent + fraction.length ∧
    Nat.ofDigitChars 10 (whole ++ fraction) 0 = n * 10 ^ (exponent + fraction.length).toNat

section

variable {digits : List Char} (hd : ∀ c ∈ digits, c.isDigit)

include hd

theorem isDigit_of_mem_zeros_append (zeros : Nat) :
    ∀ c ∈ List.replicate zeros '0' ++ digits, c.isDigit := by
  intro c hc
  rcases List.mem_append.mp hc with hc | hc
  · rw [List.eq_of_mem_replicate hc]
    rfl
  · exact hd c hc

/-- Zeros stand between the point and the digits. -/
theorem Positional.below (zeros : Nat) :
    Positional ('0' :: '.' :: List.replicate zeros '0' ++ digits) (Nat.ofDigitChars 10 digits 0)
      (-(zeros + digits.length : Nat)) := by
  refine ⟨['0'], List.replicate zeros '0' ++ digits, rfl, by simp, by simp,
    isDigit_of_mem_zeros_append hd zeros, ?_, ?_⟩
  · rw [List.length_append, List.length_replicate]
    omega
  · rw [List.length_append, List.length_replicate, Int.add_left_neg]
    simp [Nat.ofDigitChars_append, Nat.ofDigitChars_cons]

/-- Zeros stand between the digits and the point. -/
theorem Positional.above (hne : digits ≠ []) (zeros : Nat) :
    Positional (digits ++ List.replicate zeros '0' ++ ['.', '0']) (Nat.ofDigitChars 10 digits 0)
      zeros := by
  refine ⟨digits ++ List.replicate zeros '0', ['0'], by simp, by simp [hne], ?_, by simp, by omega,
    ?_⟩
  · intro c hc
    exact isDigit_of_mem_zeros_append hd zeros c
      (List.mem_append.mpr (List.mem_append.mp hc).symm)
  · have hs : ((zeros : Int) + (['0'] : List Char).length).toNat = zeros + 1 := rfl
    rw [hs, Nat.pow_succ]
    simp only [Nat.ofDigitChars_append, Nat.ofDigitChars_replicate_zero, Nat.ofDigitChars_cons,
      Nat.ofDigitChars_nil]
    rw [← Nat.mul_assoc, Nat.mul_comm (Nat.ofDigitChars 10 digits 0), Nat.mul_comm 10]
    rfl

/-- The point stands among the digits. -/
theorem Positional.among {point : Nat} (hp : 0 < point) (hl : point < digits.length) :
    Positional (digits.take point ++ '.' :: digits.drop point) (Nat.ofDigitChars 10 digits 0)
      (point - digits.length) := by
  have hs : (point - digits.length : Int) + (digits.drop point).length = 0 := by
    rw [List.length_drop]
    omega
  refine ⟨digits.take point, digits.drop point, rfl, ?_, ?_, ?_, Int.le_of_eq hs.symm, ?_⟩
  · apply List.ne_nil_of_length_pos
    rw [List.length_take]
    omega
  · intro c hc
    exact hd c (List.mem_of_mem_take hc)
  · intro c hc
    exact hd c (List.mem_of_mem_drop hc)
  · rw [hs, List.take_append_drop]
    simp

end

theorem positional_spec (n : Nat) (exponent : Int) :
    Positional (positional (natChars n) ((natChars n).length + exponent)) n exponent := by
  have hd (c : Char) (h : c ∈ natChars n) : c.isDigit := isDigit_of_mem_natChars h
  have hv : Nat.ofDigitChars 10 (natChars n) 0 = n := Nat.ofDigitChars_ten_toDigits
  have hne : natChars n ≠ [] := natChars_ne_nil n
  generalize natChars n = digits at hd hv hne
  subst hv
  unfold positional
  by_cases hlow : (digits.length : Int) + exponent ≤ 0
  · rw [if_pos hlow]
    have he : exponent =
        -((-(digits.length + exponent : Int)).toNat + digits.length : Nat) := by omega
    simpa only [← he] using Positional.below hd (-(digits.length + exponent : Int)).toNat
  rw [if_neg hlow]
  by_cases hhigh : digits.length ≤ ((digits.length : Int) + exponent).toNat
  · rw [if_pos hhigh]
    have he : exponent = ((digits.length + exponent : Int).toNat - digits.length : Nat) := by omega
    simpa only [← he] using
      Positional.above hd hne ((digits.length + exponent : Int).toNat - digits.length)
  · rw [if_neg hhigh]
    have he : exponent = (digits.length + exponent : Int).toNat - digits.length := by omega
    have hpos : 0 < (digits.length + exponent : Int).toNat := by omega
    have h := Positional.among hd hpos (by omega)
    rwa [← he] at h

theorem not_mem_of_isDigit {cs : List Char} {c : Char} (hd : ∀ d ∈ cs, d.isDigit)
    (hc : c.isDigit = false) : c ∉ cs := by
  intro h
  simp [hd c h] at hc

theorem Positional.unique {text : List Char} {x y : Decimal} (hn : x.negative = y.negative)
    (hx : Positional text x.digits x.exponent) (hy : Positional text y.digits y.exponent) :
    x = y := by
  obtain ⟨whole, fraction, rfl, -, hw, hf, hs, hv⟩ := hx
  obtain ⟨whole', fraction', ht, -, -, -, hs', hv'⟩ := hy
  obtain ⟨rfl, -, rfl⟩ := (List.append_cons_inj_of_notMem (not_mem_of_isDigit hw (by decide))
    (not_mem_of_isDigit hf (by decide))).mp ht
  exact eq_of_shifted hn fraction.length hs hs' (hv.symm.trans hv')

/-! ## Scientific texts -/

/-- The digits of a scientific text, with a point after the first of several. -/
theorem scientific_spec (digits : List Char) (point : Int) :
    ∃ mantissa, scientific digits point =
        mantissa ++ 'e' :: ((if 0 < point then ['+'] else []) ++ intChars (point - 1)) ∧
      mantissa.filter (· ≠ '.') = digits.filter (· ≠ '.') ∧
      mantissa.head? = digits.head? ∧ ∀ c ∈ mantissa, c ∈ digits ∨ c = '.' := by
  unfold scientific
  match digits with
  | [] => exact ⟨[], by simp⟩
  | [c] => exact ⟨[c], by simp⟩
  | c :: d :: rest =>
      refine ⟨c :: '.' :: d :: rest, by simp, by simp [List.filter_cons], rfl, ?_⟩
      intro x hx
      simp only [List.mem_cons] at hx ⊢
      tauto

theorem not_mem_power {c : Char} (point : Int) (hc : c.isDigit = false) (hm : c ≠ '-')
    (hp : c ≠ '+') : c ∉ (if 0 < point then ['+'] else []) ++ intChars (point - 1) := by
  rw [List.mem_append, not_or]
  refine ⟨?_, not_mem_intChars _ hc hm⟩
  split <;> simp [hp]

theorem filter_ne_of_not_mem {c : Char} {cs : List Char} (h : c ∉ cs) :
    cs.filter (· ≠ c) = cs := by
  apply List.filter_eq_self.mpr
  intro d hd
  simpa using fun hc : d = c => h (hc ▸ hd)

theorem power_injective {p q : Int} (h : (if 0 < p then ['+'] else []) ++ intChars (p - 1) =
    (if 0 < q then ['+'] else []) ++ intChars (q - 1)) : p = q := by
  have hf (r : Int) : ((if 0 < r then ['+'] else []) ++ intChars (r - 1)).filter (· ≠ '+') =
      intChars (r - 1) := by
    have hm : '+' ∉ intChars (r - 1) := not_mem_intChars _ (by decide) (by decide)
    rw [List.filter_append, filter_ne_of_not_mem hm]
    split <;> simp
  have := intChars_injective ((hf p).symm.trans ((congrArg _ h).trans (hf q)))
  omega

theorem scientific_unique {x y : Decimal} (hn : x.negative = y.negative)
    (h : scientific (natChars x.digits) x.point = scientific (natChars y.digits) y.point) :
    x = y := by
  obtain ⟨m, hx, hm, -, hmem⟩ := scientific_spec (natChars x.digits) x.point
  obtain ⟨m', hy, hm', -, -⟩ := scientific_spec (natChars y.digits) y.point
  have he : 'e' ∉ m := by
    intro he
    rcases hmem 'e' he with he | he
    · exact not_mem_natChars _ (by decide) he
    · simp at he
  rw [hx, hy] at h
  obtain ⟨rfl, -, hp⟩ := (List.append_cons_inj_of_notMem he
    (not_mem_power _ (by decide) (by decide) (by decide))).mp h
  have hpoint := power_injective hp
  have hfilter (k : Nat) : (natChars k).filter (· ≠ '.') = natChars k :=
    filter_ne_of_not_mem (not_mem_natChars k (by decide))
  rw [hm, hfilter, hfilter] at hm'
  have hd := natChars_injective hm'
  have hexponent : x.exponent = y.exponent := by
    simp only [Decimal.point, hd] at hpoint
    omega
  apply eq_of_shifted hn (x.exponent.natAbs) (by omega) (by omega)
  rw [hd, hexponent]

/-! ## Decimals and numbers -/

def magnitude (d : Decimal) : List Char :=
  if -5 < d.point ∧ d.point ≤ 16 then positional (natChars d.digits) d.point
  else scientific (natChars d.digits) d.point

theorem chars_eq_signed (d : Decimal) : d.chars = d.signed d.magnitude := by
  unfold chars magnitude plainChars
  split <;> rfl

theorem magnitude_cases (d : Decimal) :
    Positional d.magnitude d.digits d.exponent ∨
      d.magnitude = scientific (natChars d.digits) d.point := by
  unfold magnitude
  split
  · exact .inl (positional_spec d.digits d.exponent)
  · exact .inr rfl

theorem Positional.not_mem {text : List Char} {n : Nat} {exponent : Int}
    (h : Positional text n exponent) {c : Char} (hc : c.isDigit = false) (hp : c ≠ '.') :
    c ∉ text := by
  obtain ⟨whole, fraction, rfl, -, hw, hf, -⟩ := h
  simp [not_mem_of_isDigit hw hc, not_mem_of_isDigit hf hc, hp]

theorem mem_scientific (digits : List Char) (point : Int) : 'e' ∈ scientific digits point := by
  obtain ⟨m, h, -⟩ := scientific_spec digits point
  simp [h]

theorem Positional.ne_scientific {text : List Char} {n : Nat} {exponent point : Int}
    {digits : List Char} (h : Positional text n exponent) : text ≠ scientific digits point := by
  intro he
  exact h.not_mem (by decide) (by decide) (he ▸ mem_scientific digits point)

theorem magnitude_injective {x y : Decimal} (hn : x.negative = y.negative)
    (h : x.magnitude = y.magnitude) : x = y := by
  rcases magnitude_cases x with hx | hx
  · rcases magnitude_cases y with hy | hy
    · exact hx.unique hn (h ▸ hy)
    · exact (hx.ne_scientific (h.trans hy)).elim
  · rcases magnitude_cases y with hy | hy
    · exact (hy.ne_scientific (h.symm.trans hx)).elim
    · exact scientific_unique hn (hx.symm.trans (h.trans hy))

/-- A magnitude opens with a digit. -/
theorem magnitude_head (d : Decimal) : ∃ c rest, d.magnitude = c :: rest ∧ c.isDigit := by
  rcases magnitude_cases d with ⟨whole, fraction, h, hne, hw, -⟩ | h
  · obtain ⟨c, rest, rfl⟩ := List.exists_cons_of_ne_nil hne
    exact ⟨c, rest ++ '.' :: fraction, h, hw c List.mem_cons_self⟩
  · obtain ⟨m, hm, -, hhead, -⟩ := scientific_spec (natChars d.digits) d.point
    obtain ⟨c, rest, hc⟩ := List.exists_cons_of_ne_nil (natChars_ne_nil d.digits)
    rw [hc, List.head?_cons, List.head?_eq_some_iff] at hhead
    obtain ⟨others, rfl⟩ := hhead
    refine ⟨c, _, h.trans (hm.trans (List.cons_append ..)), ?_⟩
    exact isDigit_of_mem_natChars (hc ▸ List.mem_cons_self)

theorem chars_injective {x y : Decimal} (h : x.chars = y.chars) : x = y := by
  have hm (d : Decimal) (cs : List Char) : d.magnitude ≠ '-' :: cs := by
    obtain ⟨c, rest, hd, hc⟩ := magnitude_head d
    intro he
    rw [hd, List.cons.injEq] at he
    simp [he.1] at hc
  rw [chars_eq_signed, chars_eq_signed] at h
  unfold signed at h
  cases hx : x.negative <;> cases hy : y.negative <;> simp only [hx, hy, if_true] at h
  · exact magnitude_injective (hx.trans hy.symm) h
  · exact (hm x _ h).elim
  · exact (hm y _ h.symm).elim
  · exact magnitude_injective (hx.trans hy.symm) (List.cons.inj h).2

def isNumberChar (c : Char) : Bool :=
  c.isDigit || c = '-' || c = '+' || c = '.' || c = 'e'

theorem isNumberChar_of_isDigit {c : Char} (h : c.isDigit) : isNumberChar c := by
  simp [isNumberChar, h]

theorem isNumberChar_of_mem_intChars {n : Int} {c : Char} (h : c ∈ intChars n) :
    isNumberChar c := by
  by_contra hc
  simp only [isNumberChar, Bool.or_eq_true, decide_eq_true_eq, not_or, Bool.not_eq_true] at hc
  exact not_mem_intChars n hc.1.1.1.1 hc.1.1.1.2 h

theorem isNumberChar_of_mem_magnitude {d : Decimal} {c : Char} (h : c ∈ d.magnitude) :
    isNumberChar c := by
  rcases magnitude_cases d with ⟨whole, fraction, ht, -, hw, hf, -⟩ | ht
  · rw [ht, List.mem_append, List.mem_cons] at h
    rcases h with h | rfl | h
    · exact isNumberChar_of_isDigit (hw c h)
    · rfl
    · exact isNumberChar_of_isDigit (hf c h)
  · obtain ⟨m, hm, -, -, hmem⟩ := scientific_spec (natChars d.digits) d.point
    rw [ht, hm, List.mem_append, List.mem_cons, List.mem_append] at h
    rcases h with h | rfl | h | h
    · rcases hmem c h with h | rfl
      · exact isNumberChar_of_isDigit (isDigit_of_mem_natChars h)
      · rfl
    · rfl
    · split at h <;> simp at h
      subst h
      rfl
    · exact isNumberChar_of_mem_intChars h

end Decimal

namespace Json.Number

open Decimal

theorem isNumberChar_of_mem_chars {n : Number} {c : Char} (h : c ∈ n.chars) :
    isNumberChar c := by
  cases n with
  | int n => exact isNumberChar_of_mem_intChars h
  | float d =>
      simp only [Number.chars, chars_eq_signed, signed] at h
      split at h
      · rcases List.mem_cons.mp h with rfl | h
        · rfl
        · exact isNumberChar_of_mem_magnitude h
      · exact isNumberChar_of_mem_magnitude h

theorem chars_ne_nil (n : Number) : n.chars ≠ [] := by
  cases n with
  | int n => cases n <;> simp [Number.chars, intChars, natChars_ne_nil]
  | float d =>
      obtain ⟨c, rest, h, -⟩ := magnitude_head d
      simp only [Number.chars, chars_eq_signed, signed, h]
      split <;> simp

/-- A decimal shows a point or an `e`, and an integer shows neither. -/
theorem intChars_ne_chars (n : Int) (d : Decimal) : intChars n ≠ d.chars := by
  intro h
  have hc (c : Char) (hd : c.isDigit = false) (hm : c ≠ '-') : c ∉ d.magnitude := by
    intro hmem
    apply not_mem_intChars n hd hm
    rw [h, chars_eq_signed, signed]
    split <;> simp [hmem]
  rcases magnitude_cases d with ⟨whole, fraction, ht, -⟩ | ht
  · exact hc '.' (by decide) (by decide) (by simp [ht])
  · exact hc 'e' (by decide) (by decide) (ht ▸ mem_scientific _ _)

theorem chars_injective {m n : Number} (h : m.chars = n.chars) : m = n := by
  cases m with
  | int m =>
      cases n with
      | int n => rw [intChars_injective h]
      | float y => exact (intChars_ne_chars m y h).elim
  | float x =>
      cases n with
      | int n => exact (intChars_ne_chars n x h.symm).elim
      | float y => rw [Decimal.chars_injective h]

end Json.Number

end ResourceTypes
