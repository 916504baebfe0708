import ResourceTypes.Lowering.Types
import ResourceTypes.Proofs.Naming.Identifiers

/-! # The names of numbers and truth values

A constant is named after the enumeration and the text of its literal. Of a number, only the digits
and the mark of a power of ten are left in a name. The mark stands behind a digit, so it never
begins a word and keeps its case. Together with the letters of truth values these are few
characters, no two of which have the same capital.
-/

namespace ResourceTypes.Naming

/-- The characters that numbers and truth values leave in a name, and those of the word for a
literal that leaves none. -/
def literalChars : List Char :=
  ['0', '1', '2', '3', '4', '5', '6', '7', '8', '9', 'e', 'T', 'r', 'u', 'F', 'a', 'l', 's', 'V']

def LiteralText (cs : List Char) : Prop :=
  ∀ c ∈ cs, c ∈ literalChars

def ofCapital (c : Char) : Char :=
  (literalChars.find? (·.toUpper = c)).getD c

/-- The text is known from its capitals. -/
theorem LiteralText.map_ofCapital {cs : List Char} (h : LiteralText cs) :
    (cs.map Char.toUpper).map ofCapital = cs := by
  have hall : (literalChars.all fun c => ofCapital c.toUpper = c) = true := by decide
  have hsame : ∀ c ∈ cs, (ofCapital ∘ Char.toUpper) c = id c := fun c hc =>
    of_decide_eq_true (List.all_eq_true.mp hall c (h c hc))
  rw [List.map_map, List.map_congr_left hsame, List.map_id]

theorem isAlphanum_literalChars : ∀ c ∈ literalChars, c.isAlphanum = true :=
  List.all_eq_true.mp (by decide)

theorem literalText_of_all {cs : List Char} (h : (cs.all fun c => c ∈ literalChars) = true) :
    LiteralText cs :=
  fun c hc => of_decide_eq_true (List.all_eq_true.mp h c hc)

theorem mem_literalChars_of_isDigit {c : Char} (h : c.isDigit = true) : c ∈ literalChars := by
  have hall : ∀ n < 128, (Char.ofNat n).isDigit = true → Char.ofNat n ∈ literalChars := by decide
  have hbound : c.toNat ≤ 57 := (Char.isDigit_iff_toNat.mp h).2
  exact ascii_cases (P := fun c => c.isDigit = true → c ∈ literalChars) hall (by omega) h

/-! ## Words of digits -/

theorem camelFrom_cons_digit {d : Char} (h : d.isDigit = true) (start : Bool) (tail : List Char) :
    camelFrom start (d :: tail) = d :: camelFrom false tail := by
  have hall : ∀ n < 128, (Char.ofNat n).isDigit = true → (Char.ofNat n).toUpper = Char.ofNat n := by
    decide
  have hbound : d.toNat ≤ 57 := (Char.isDigit_iff_toNat.mp h).2
  have hlt : d.toNat < 128 := by omega
  have hsame : d.toUpper = d :=
    ascii_cases (P := fun c => c.isDigit = true → c.toUpper = c) hall hlt h
  have hword : Text.isAlphanumeric d = true := by
    rw [Text.isAlphanumeric, if_pos hlt, Char.isAlphanum, h, Bool.or_true]
  have hupper : Text.upper d = [d.toUpper] := if_pos hlt
  rw [camelFrom, if_pos hword, hupper, hsame]
  cases start <;> rfl

/-- A run of digits is kept, and a word goes on behind it. -/
theorem camelFrom_digits {ds : List Char} (h : ∀ d ∈ ds, d.isDigit = true) (tail : List Char) :
    camelFrom false (ds ++ tail) = ds ++ camelFrom false tail := by
  induction ds with
  | nil => rfl
  | cons d ds ih =>
      rw [List.cons_append, camelFrom_cons_digit (h d List.mem_cons_self),
        ih fun c hc => h c (List.mem_cons_of_mem d hc), List.cons_append]

theorem camelFrom_separator {c : Char} (h : c = '-' ∨ c = '+' ∨ c = '.') (start : Bool)
    (tail : List Char) : camelFrom start (c :: tail) = camelFrom true tail := by
  rcases h with rfl | rfl | rfl <;> rfl

/-- Without a power of ten, only digits are left of a number. -/
theorem camelFrom_numeric {cs : List Char}
    (h : ∀ c ∈ cs, c.isDigit = true ∨ c = '-' ∨ c = '+' ∨ c = '.') (start : Bool) :
    LiteralText (camelFrom start cs) := by
  induction cs generalizing start with
  | nil => exact List.forall_mem_nil _
  | cons c cs ih =>
      have hrest := ih fun d hd => h d (List.mem_cons_of_mem c hd)
      rcases h c List.mem_cons_self with hdigit | hseparator
      · rw [camelFrom_cons_digit hdigit]
        exact List.forall_mem_cons.mpr ⟨mem_literalChars_of_isDigit hdigit, hrest false⟩
      · rw [camelFrom_separator hseparator]
        exact hrest true

/-- The mark of a power of ten goes on with a word. -/
theorem camelFrom_power {ds power : List Char} (hd : ∀ d ∈ ds, d.isDigit = true)
    (hp : ∀ c ∈ power, c.isDigit = true ∨ c = '-' ∨ c = '+' ∨ c = '.') :
    LiteralText (camelFrom false (ds ++ 'e' :: power)) := by
  have hmark : camelFrom false ('e' :: power) = 'e' :: camelFrom false power := rfl
  rw [camelFrom_digits hd, hmark]
  refine List.forall_mem_append.mpr ⟨fun d hm => mem_literalChars_of_isDigit (hd d hm), ?_⟩
  exact List.forall_mem_cons.mpr ⟨by decide, camelFrom_numeric hp false⟩

theorem camelFrom_scientific {digits : List Char} (hne : digits ≠ [])
    (hd : ∀ d ∈ digits, d.isDigit = true) (point : Int) :
    LiteralText (camelFrom true (Decimal.scientific digits point)) := by
  have hpower : ∀ c ∈ (if 0 < point then ['+'] else []) ++ Decimal.intChars (point - 1),
      c.isDigit = true ∨ c = '-' ∨ c = '+' ∨ c = '.' := by
    intro c hc
    by_contra hother
    simp only [not_or, Bool.not_eq_true] at hother
    exact Decimal.not_mem_power point hother.1 hother.2.1 hother.2.2.1 hc
  obtain ⟨first, rest, rfl⟩ := List.exists_cons_of_ne_nil hne
  obtain ⟨hfirst, hrest⟩ := List.forall_mem_cons.mp hd
  have hmem := mem_literalChars_of_isDigit hfirst
  cases rest with
  | nil =>
      change LiteralText (camelFrom true (first :: 'e' :: _))
      rw [camelFrom_cons_digit hfirst]
      exact List.forall_mem_cons.mpr ⟨hmem, camelFrom_power (List.forall_mem_nil _) hpower⟩
  | cons second rest =>
      have hsecond := (List.forall_mem_cons.mp hrest).1
      have hshape : Decimal.scientific (first :: second :: rest) point = first :: '.' :: second ::
          (rest ++ 'e' :: ((if 0 < point then ['+'] else []) ++ Decimal.intChars (point - 1))) := by
        simp [Decimal.scientific]
      rw [hshape, camelFrom_cons_digit hfirst, camelFrom_separator (.inr (.inr rfl)),
        camelFrom_cons_digit hsecond]
      refine List.forall_mem_cons.mpr ⟨hmem, List.forall_mem_cons.mpr ⟨?_, ?_⟩⟩
      · exact mem_literalChars_of_isDigit hsecond
      · exact camelFrom_power (List.forall_mem_cons.mp hrest).2 hpower

/-! ## Literals -/

theorem camelFrom_magnitude (d : Decimal) : LiteralText (camelFrom true d.magnitude) := by
  rcases Decimal.magnitude_cases d with hpositional | hscientific
  · refine camelFrom_numeric (fun c hc => ?_) true
    by_contra hother
    simp only [not_or, Bool.not_eq_true] at hother
    exact hpositional.not_mem hother.1 hother.2.2.2 hc
  · rw [hscientific]
    exact camelFrom_scientific (Decimal.natChars_ne_nil _)
      (fun c hc => Decimal.isDigit_of_mem_natChars hc) d.point

theorem camelFrom_number (n : Json.Number) : LiteralText (camelFrom true n.chars) := by
  cases n with
  | int n =>
      refine camelFrom_numeric (fun c hc => ?_) true
      by_contra hother
      simp only [not_or, Bool.not_eq_true] at hother
      exact Decimal.not_mem_intChars n hother.1 hother.2.1 hc
  | float d =>
      rw [Json.Number.chars, Decimal.chars_eq_signed, Decimal.signed]
      split
      · rw [camelFrom_separator (.inl rfl)]
        exact camelFrom_magnitude d
      · exact camelFrom_magnitude d

theorem literalText_number (n : Json.Number) : (literalText (.num n)).toList = n.chars := by
  have hquote : '"' ∉ n.chars := fun hm =>
    absurd (Json.Number.isNumberChar_of_mem_chars hm) (by decide)
  have htext : literalText (.num n) = String.ofList (n.chars.filter (· ≠ '"')) := rfl
  rw [htext, String.toList_ofList]
  exact Decimal.filter_ne_of_not_mem hquote

theorem constantSuffix_number (n : Json.Number) :
    LiteralText (constantSuffix (.num n)).toList := by
  have htext := literalText_number n
  unfold constantSuffix
  split
  next hstar =>
    have hmem : '*' ∈ n.chars := by
      rw [← htext, hstar]
      decide
    exact absurd (Json.Number.isNumberChar_of_mem_chars hmem) (by decide)
  next hempty =>
    rw [hempty] at htext
    exact (Json.Number.chars_ne_nil n htext.symm).elim
  next =>
    rw [camelCase, String.toList_ofList, htext]
    exact camelFrom_number n

theorem constantSuffix_bool (b : Bool) : LiteralText (constantSuffix (.bool b)).toList := by
  cases b with
  | false => exact literalText_of_all (by decide)
  | true => exact literalText_of_all (by decide)

/-! ## Names of constants -/

theorem LiteralText.append {cs ds : List Char} (h : LiteralText cs) (h' : LiteralText ds) :
    LiteralText (cs ++ ds) :=
  List.forall_mem_append.mpr ⟨h, h'⟩

/-- The name of a constant is that of the enumeration, the word for its literal, and perhaps a
number from two on. -/
theorem numbered_constantBase_cases (enumName : String) (v : Json) (k : Nat) :
    ∃ word number, numbered (constantBase enumName v) k = enumName ++ word ++ number ∧
      (word = constantSuffix v ∧ word ≠ "" ∨ constantSuffix v = "" ∧ word = "Value") ∧
      (number = "" ∨ ∃ n ≥ 2, number = String.ofList (Decimal.natChars n)) := by
  have hbase : ∃ word, constantBase enumName v = enumName ++ word ∧
      (word = constantSuffix v ∧ word ≠ "" ∨ constantSuffix v = "" ∧ word = "Value") := by
    by_cases hempty : constantSuffix v = ""
    · exact ⟨"Value", by simp only [constantBase, if_pos hempty], .inr ⟨hempty, rfl⟩⟩
    · exact ⟨constantSuffix v, by simp only [constantBase, if_neg hempty], .inl ⟨rfl, hempty⟩⟩
  obtain ⟨word, hname, hword⟩ := hbase
  cases k with
  | zero =>
      refine ⟨word, "", ?_, hword, .inl rfl⟩
      rw [numbered, hname, String.append_empty]
  | succ k =>
      refine ⟨word, String.ofList (Decimal.natChars (k + 2)), ?_, hword, .inr ⟨k + 2, ?_, rfl⟩⟩
      · rw [numbered, hname]
      · exact Nat.le_add_left 2 k

/-- The name of a constant is the name of the enumeration and what its literal adds. -/
theorem numbered_constantBase (enumName : String) (v : Json) (k : Nat) :
    ∃ added, numbered (constantBase enumName v) k = enumName ++ added ∧
      (LiteralText (constantSuffix v).toList → LiteralText added.toList) := by
  obtain ⟨word, number, hname, hword, hnumber⟩ := numbered_constantBase_cases enumName v k
  refine ⟨word ++ number, by rw [hname, String.append_assoc], fun h => ?_⟩
  rw [String.toList_append]
  apply LiteralText.append
  · rcases hword with ⟨rfl, -⟩ | ⟨-, rfl⟩
    · exact h
    · exact literalText_of_all (by decide)
  · rcases hnumber with rfl | ⟨n, -, rfl⟩
    · exact literalText_of_all (by decide)
    · rw [String.toList_ofList]
      exact fun c hc => mem_literalChars_of_isDigit (Decimal.isDigit_of_mem_natChars hc)

end ResourceTypes.Naming
