import ResourceTypes.Text.Quoted
import ResourceTypes.Yaml.Quoted

/-! # Quoted text is read back

A quoted text ends at the first quote that is not escaped, and reading it gives the text that was
quoted, whatever characters it has and whatever follows it. It never has a line break in it.
-/

namespace ResourceTypes.Text

/-! ## Reading -/

inductive QuotePosition
  | inside
  /-- Behind a backslash. -/
  | escape
  /-- Before the brace that opens the number of a character. -/
  | brace
  /-- Among the digits of a number, of which some have been read. -/
  | digits (value : Nat)

def shortEscape? : Char → Option Char
  | '"' => some '"'
  | '\\' => some '\\'
  | 'n' => some '\n'
  | 'r' => some '\r'
  | 't' => some '\t'
  | '0' => some '\x00'
  | _ => none

def pushChar (c : Char) (result : List Char × List Char) : List Char × List Char :=
  (c :: result.1, result.2)

/-- What is left of a quoted text from a position on, and what follows it. -/
def readFrom : QuotePosition → List Char → Option (List Char × List Char)
  | _, [] => none
  | .inside, c :: rest =>
    if c = '"' then some ([], rest)
    else if c = '\\' then readFrom .escape rest
    else (readFrom .inside rest).map (pushChar c)
  | .escape, c :: rest =>
    if c = 'u' then readFrom .brace rest
    else (shortEscape? c).bind fun d => (readFrom .inside rest).map (pushChar d)
  | .brace, c :: rest => if c = '\x7b' then readFrom (.digits 0) rest else none
  | .digits value, c :: rest =>
    if c = '\x7d' then
      if value.isValidChar then (readFrom .inside rest).map (pushChar (Char.ofNat value)) else none
    else (Yaml.Quoted.hexValue? c).bind fun d => readFrom (.digits (16 * value + d)) rest

/-- The text between the quotes that a text begins with, and what follows them. -/
def readQuoted : List Char → Option (List Char × List Char)
  | [] => none
  | c :: rest => if c = '"' then readFrom .inside rest else none

theorem readFrom_suffix {position : QuotePosition} {cs value rest : List Char}
    (h : readFrom position cs = some (value, rest)) : rest <:+ cs := by
  induction cs generalizing position value with
  | nil => cases position <;> cases h
  | cons c cs ih =>
      have hmap : ∀ {d : Char}, (readFrom .inside cs).map (pushChar d) = some (value, rest) →
          rest <:+ c :: cs := by
        intro d hd
        obtain ⟨⟨found, left⟩, hfound, hpush⟩ := Option.map_eq_some_iff.mp hd
        cases hpush
        exact (ih hfound).trans (List.suffix_cons c cs)
      cases position with
      | inside =>
          rw [readFrom] at h
          split at h
          · cases h
            exact List.suffix_cons c rest
          split at h
          · exact (ih h).trans (List.suffix_cons c cs)
          · exact hmap h
      | escape =>
          rw [readFrom] at h
          split at h
          · exact (ih h).trans (List.suffix_cons c cs)
          · obtain ⟨d, -, hd⟩ := Option.bind_eq_some_iff.mp h
            exact hmap hd
      | brace =>
          rw [readFrom] at h
          split at h
          · exact (ih h).trans (List.suffix_cons c cs)
          · cases h
      | digits number =>
          rw [readFrom] at h
          split at h
          · split at h
            · exact hmap h
            · cases h
          · obtain ⟨d, -, hd⟩ := Option.bind_eq_some_iff.mp h
            exact (ih hd).trans (List.suffix_cons c cs)

/-- What follows a quoted text is the end of the whole. -/
theorem readQuoted_suffix {cs value rest : List Char} (h : readQuoted cs = some (value, rest)) :
    rest <:+ cs := by
  cases cs with
  | nil => cases h
  | cons c cs =>
      rw [readQuoted] at h
      split at h
      · exact (readFrom_suffix h).trans (List.suffix_cons c cs)
      · cases h

/-! ## Numbers of characters -/

theorem hexChars_of_lt {n : Nat} (h : n < 16) : hexChars n = [Nat.digitChar n] :=
  Nat.toDigits_of_lt_base h

theorem hexChars_of_le {n : Nat} (h : 16 ≤ n) :
    hexChars n = hexChars (n / 16) ++ [Nat.digitChar (n % 16)] :=
  Nat.toDigits_of_base_le (by decide) h

theorem readFrom_digit (value : Nat) {d : Nat} (hd : d < 16) (rest : List Char) :
    readFrom (.digits value) (Nat.digitChar d :: rest) =
      readFrom (.digits (16 * value + d)) rest := by
  have hbrace : ∀ d < 16, Nat.digitChar d ≠ '\x7d' := by decide
  have hvalue : ∀ d < 16, Yaml.Quoted.hexValue? (Nat.digitChar d) = some d := by decide
  rw [readFrom, if_neg (hbrace d hd), hvalue d hd, Option.bind_some]

theorem readFrom_hexChars (n : Nat) (rest : List Char) :
    readFrom (.digits 0) (hexChars n ++ rest) = readFrom (.digits n) rest := by
  induction n using Nat.strongRecOn generalizing rest with
  | ind n ih =>
      by_cases h : n < 16
      · rw [hexChars_of_lt h, List.singleton_append, readFrom_digit 0 h, Nat.mul_zero, Nat.zero_add]
      · have hle : 16 ≤ n := Nat.le_of_not_lt h
        have hlt : n / 16 < n := Nat.div_lt_self (by omega) (by decide)
        rw [hexChars_of_le hle, List.append_assoc, ih (n / 16) hlt, List.singleton_append,
          readFrom_digit _ (Nat.mod_lt n (by decide)), Nat.div_add_mod]

theorem mem_hexChars {n : Nat} {c : Char} (h : c ∈ hexChars n) : ∃ d < 16, c = Nat.digitChar d := by
  induction n using Nat.strongRecOn with
  | ind n ih =>
      by_cases hn : n < 16
      · rw [hexChars_of_lt hn, List.mem_singleton] at h
        exact ⟨n, hn, h⟩
      · have hlt : n / 16 < n := Nat.div_lt_self (by omega) (by decide)
        rw [hexChars_of_le (Nat.le_of_not_lt hn), List.mem_append, List.mem_singleton] at h
        rcases h with h | h
        · exact ih (n / 16) hlt h
        · exact ⟨n % 16, Nat.mod_lt n (by decide), h⟩

/-! ## Quoted text -/

theorem readFrom_quoteChar (c : Char) (rest : List Char) :
    readFrom .inside (quoteChar c ++ rest) = (readFrom .inside rest).map (pushChar c) := by
  unfold quoteChar
  split
  all_goals try rfl
  next hquote hslash _ _ _ _ =>
    split
    next =>
      -- the escape opens a number, which is read up to its brace
      have hopen : ∀ digits : List Char,
          readFrom .inside ('\\' :: 'u' :: '\x7b' :: digits) = readFrom (.digits 0) digits :=
        fun _ => rfl
      have hvalid : c.toNat.isValidChar := c.valid
      have hclose : readFrom (.digits c.toNat) ('\x7d' :: rest) =
          (readFrom .inside rest).map (pushChar c) := by
        rw [readFrom, if_pos rfl, if_pos hvalid, Char.ofNat_toNat]
      rw [List.append_assoc, List.cons_append, List.cons_append, List.cons_append, hopen,
        readFrom_hexChars, List.singleton_append, hclose]
    next =>
      rw [List.singleton_append, readFrom, if_neg hquote, if_neg hslash]

theorem readFrom_inside (cs rest : List Char) :
    readFrom .inside (cs.flatMap quoteChar ++ '"' :: rest) = some (cs, rest) := by
  induction cs with
  | nil => rfl
  | cons c cs ih =>
      rw [List.flatMap_cons, List.append_assoc, readFrom_quoteChar, ih]
      rfl

/-- A quoted text is read back, and what follows it is left. -/
theorem readQuoted_quotedChars (cs rest : List Char) :
    readQuoted (quotedChars cs ++ rest) = some (cs, rest) := by
  have htext : quotedChars cs ++ rest = '"' :: (cs.flatMap quoteChar ++ '"' :: rest) := by
    simp [quotedChars]
  rw [htext, readQuoted, if_pos rfl, readFrom_inside]

theorem not_mem_quoteChar (c : Char) : '\n' ∉ quoteChar c := by
  unfold quoteChar
  split
  all_goals try decide
  next _ _ hline _ _ _ =>
    split
    next =>
      have hdigit : ∀ d < 16, '\n' ≠ Nat.digitChar d := by decide
      have hnumber : '\n' ∉ hexChars c.toNat := by
        intro hn
        obtain ⟨d, hd, hc⟩ := mem_hexChars hn
        exact hdigit d hd hc
      simp [hnumber]
    next => simpa using Ne.symm hline

theorem not_mem_quotedChars (cs : List Char) : '\n' ∉ quotedChars cs := by
  simp [quotedChars, not_mem_quoteChar]

end ResourceTypes.Text
