import ResourceTypes.Json.Reader
import ResourceTypes.Proofs.Decimal

/-! # The text of a value determines the value

A compact text can be cut off from whatever follows it: strings end at the first quote that is not
escaped, numbers at the first character that no number has, and lists and objects at the bracket
that closes them. So two values with one text are one value. The text has no line breaks.
-/

namespace ResourceTypes.Json

open Decimal (isNumberChar)

/-! ## Strings -/

def readChar : List Char → Option (Char × List Char)
  | '\\' :: rest => readEscape rest
  | c :: rest => some (c, rest)
  | [] => none

theorem readHex_hexDigit (value steps n : Nat) (rest : List Char) :
    readHex value (steps + 1) (hexDigit n :: rest) = readHex (16 * value + n % 16) steps rest := by
  have hd : ∀ d < 16, (if (Nat.digitChar d).isDigit then some ((Nat.digitChar d).toNat - 48)
      else if 'a' ≤ Nat.digitChar d && Nat.digitChar d ≤ 'f' then
        some ((Nat.digitChar d).toNat - 87)
      else if 'A' ≤ Nat.digitChar d && Nat.digitChar d ≤ 'F' then
        some ((Nat.digitChar d).toNat - 55)
      else none) = some d := by decide
  exact congrArg (fun digit : Option Nat => digit.bind fun d => readHex (16 * value + d) steps rest)
    (hd (n % 16) (Nat.mod_lt n (by decide)))

theorem readEscape_control (c : Char) (rest : List Char) (hc : c.toNat < 32) :
    readEscape ('u' :: '0' :: '0' :: hexDigit (c.toNat / 16) :: hexDigit c.toNat :: rest) =
      some (c, rest) := by
  have hz : '0' = hexDigit 0 := rfl
  have hv : readHex 0 4 ('0' :: '0' :: hexDigit (c.toNat / 16) :: hexDigit c.toNat :: rest) =
      some (c.toNat, rest) := by
    rw [hz, readHex_hexDigit, readHex_hexDigit, readHex_hexDigit, readHex_hexDigit, readHex,
      Option.some.injEq, Prod.mk.injEq]
    exact ⟨by omega, rfl⟩
  have hlow : ¬ 0xD800 ≤ c.toNat := by omega
  have hmid : ¬ 0xDC00 ≤ c.toNat := by omega
  simp [readEscape, hv, hlow, hmid]

theorem readChar_escapeChar (c : Char) (rest : List Char) :
    readChar (escapeChar c ++ rest) = some (c, rest) := by
  unfold escapeChar
  split
  all_goals try rfl
  next hquote hslash _ _ _ _ _ =>
    split
    next hc => exact readEscape_control c rest hc
    next =>
      unfold readChar
      split
      next h => exact (hslash (List.cons.inj h).1).elim
      next h => rw [← (List.cons.inj h).1, ← (List.cons.inj h).2]; rfl
      next h => cases h

theorem escapeChar_head (c : Char) : ∃ d rest, escapeChar c = d :: rest ∧ d ≠ '"' := by
  unfold escapeChar
  split
  all_goals try exact ⟨'\\', _, rfl, by decide⟩
  next hquote _ _ _ _ _ _ =>
    split
    next => exact ⟨'\\', _, rfl, by decide⟩
    next => exact ⟨c, [], rfl, hquote⟩

theorem escaped_append_inj {s t rest rest' : List Char}
    (h : s.flatMap escapeChar ++ '"' :: rest = t.flatMap escapeChar ++ '"' :: rest') :
    s = t ∧ rest = rest' := by
  induction s generalizing t with
  | nil =>
      cases t with
      | nil => simpa using h
      | cons d t =>
          obtain ⟨e, es, he, hne⟩ := escapeChar_head d
          simp [he, hne.symm] at h
  | cons c s ih =>
      cases t with
      | nil =>
          obtain ⟨e, es, he, hne⟩ := escapeChar_head c
          simp [he, hne] at h
      | cons d t =>
          simp only [List.flatMap_cons, List.append_assoc] at h
          have hr := congrArg readChar h
          rw [readChar_escapeChar, readChar_escapeChar, Option.some.injEq, Prod.mk.injEq] at hr
          obtain ⟨rfl, hrest⟩ := ih hr.2
          exact ⟨by rw [hr.1], hrest⟩

theorem quote_append_inj {s t : String} {rest rest' : List Char}
    (h : quote s ++ rest = quote t ++ rest') : s = t ∧ rest = rest' := by
  simp only [quote, List.cons_append, List.append_assoc, List.cons.injEq, true_and] at h
  obtain ⟨hs, hrest⟩ := escaped_append_inj h
  exact ⟨String.toList_inj.mp hs, hrest⟩

/-! ## Numbers -/

/-- Whether a number in front of a text ends where the text begins. -/
def Stops (rest : List Char) : Prop :=
  ∀ c ∈ rest.head?, isNumberChar c = false

theorem Stops.takeWhile {rest : List Char} (h : Stops rest) :
    rest.takeWhile isNumberChar = [] := by
  cases rest with
  | nil => rfl
  | cons c rest => exact List.takeWhile_cons_of_neg (by simp [h c rfl])

theorem Number.append_inj {m n : Number} {rest rest' : List Char} (hr : Stops rest)
    (hr' : Stops rest') (h : m.chars ++ rest = n.chars ++ rest') : m = n ∧ rest = rest' := by
  have hcut := congrArg (List.takeWhile isNumberChar) h
  rw [List.takeWhile_append_of_pos fun c hc => Number.isNumberChar_of_mem_chars hc,
    List.takeWhile_append_of_pos fun c hc => Number.isNumberChar_of_mem_chars hc, hr.takeWhile,
    hr'.takeWhile, List.append_nil, List.append_nil] at hcut
  obtain rfl := Number.chars_injective hcut
  exact ⟨rfl, List.append_cancel_left h⟩

/-! ## Values -/

def rank : Json → Nat
  | .null => 0
  | .bool _ => 1
  | .num _ => 2
  | .str _ => 3
  | .arr _ => 4
  | .obj _ => 5

def openingRank (c : Char) : Option Nat :=
  if c = 'n' then some 0
  else if c = 't' || c = 'f' then some 1
  else if isNumberChar c then some 2
  else if c = '"' then some 3
  else if c = '[' then some 4
  else if c = '\x7b' then some 5
  else none

theorem openingRank_number {c : Char} (h : isNumberChar c) : openingRank c = some 2 := by
  have hne {d : Char} (hd : isNumberChar d = false) : c ≠ d := by
    rintro rfl
    simp [h] at hd
  simp [openingRank, h, hne (d := 'n') (by decide), hne (d := 't') (by decide),
    hne (d := 'f') (by decide)]

theorem chars_head (v : Json) : ∃ c rest, chars v = c :: rest ∧ openingRank c = some v.rank := by
  cases v with
  | null => exact ⟨'n', _, rfl, rfl⟩
  | bool b => cases b <;> exact ⟨_, _, rfl, rfl⟩
  | num n =>
      obtain ⟨c, rest, h⟩ := List.exists_cons_of_ne_nil (Number.chars_ne_nil n)
      refine ⟨c, rest, by simp [chars, h], openingRank_number ?_⟩
      exact Number.isNumberChar_of_mem_chars (n := n) (by simp [h])
  | str s => exact ⟨'"', _, rfl, rfl⟩
  | arr items => cases items <;> exact ⟨'[', _, by rw [chars], rfl⟩
  | obj fields =>
      cases fields with
      | nil => exact ⟨'\x7b', _, by rw [chars], rfl⟩
      | cons field fields => exact ⟨'\x7b', _, by rw [chars], rfl⟩

theorem rank_eq_of_chars {v w : Json} {rest rest' : List Char}
    (h : chars v ++ rest = chars w ++ rest') : v.rank = w.rank := by
  obtain ⟨c, cs, hv, hc⟩ := chars_head v
  obtain ⟨d, ds, hw, hd⟩ := chars_head w
  rw [hv, hw, List.cons_append, List.cons_append, List.cons.injEq] at h
  rw [h.1, hd] at hc
  exact (Option.some.inj hc).symm

/-- A text that does not open a value is no text of a value. -/
theorem chars_append_ne {v : Json} {rest cs : List Char} {c : Char} (hc : openingRank c = none) :
    chars v ++ rest ≠ c :: cs := by
  obtain ⟨d, ds, hv, hd⟩ := chars_head v
  intro h
  rw [hv, List.cons_append, List.cons.injEq] at h
  rw [h.1, hc] at hd
  cases hd

theorem stops_tailChars (xs : List Json) (rest : List Char) : Stops (tailChars xs ++ rest) := by
  cases xs <;> simp [Stops, tailChars] <;> decide

theorem stops_tailFieldChars (fields : List (String × Json)) (rest : List Char) :
    Stops (tailFieldChars fields ++ rest) := by
  rcases fields with _ | ⟨⟨k, v⟩, fields⟩ <;> simp [Stops, tailFieldChars] <;> decide

mutual

/-- A value and the text after it are known by both together. -/
theorem chars_append_inj : ∀ (v w : Json) {rest rest' : List Char}, Stops rest → Stops rest' →
    chars v ++ rest = chars w ++ rest' → v = w ∧ rest = rest'
  | .null, w, _, _, _, _, h => by
      cases w <;> cases rank_eq_of_chars h
      exact ⟨rfl, List.append_cancel_left h⟩
  | .bool a, w, _, _, _, _, h => by
      cases w <;> cases rank_eq_of_chars h
      rename_i b
      cases a <;> cases b <;> simp_all [chars, boolChars]
  | .num m, w, _, _, hr, hr', h => by
      cases w <;> cases rank_eq_of_chars h
      simp only [chars] at h
      obtain ⟨rfl, hrest⟩ := Number.append_inj hr hr' h
      exact ⟨rfl, hrest⟩
  | .str s, w, _, _, _, _, h => by
      cases w <;> cases rank_eq_of_chars h
      simp only [chars] at h
      obtain ⟨rfl, hrest⟩ := quote_append_inj h
      exact ⟨rfl, hrest⟩
  | .arr [], w, _, _, _, _, h => by
      cases w <;> cases rank_eq_of_chars h
      rename_i items
      cases items with
      | nil => exact ⟨rfl, List.append_cancel_left h⟩
      | cons y ys =>
          simp only [chars, List.cons_append, List.cons.injEq, true_and, List.append_assoc] at h
          exact (chars_append_ne (by decide) h.symm).elim
  | .arr (x :: xs), w, _, _, _, _, h => by
      cases w <;> cases rank_eq_of_chars h
      rename_i items
      cases items with
      | nil =>
          simp only [chars, List.cons_append, List.cons.injEq, true_and, List.append_assoc] at h
          exact (chars_append_ne (by decide) h).elim
      | cons y ys =>
          simp only [chars, List.cons_append, List.cons.injEq, true_and, List.append_assoc] at h
          obtain ⟨rfl, ht⟩ := chars_append_inj x y (stops_tailChars xs _) (stops_tailChars ys _) h
          obtain ⟨rfl, hrest⟩ := tailChars_append_inj xs ys ht
          exact ⟨rfl, hrest⟩
  | .obj [], w, _, _, _, _, h => by
      cases w <;> cases rank_eq_of_chars h
      rename_i fields
      rcases fields with _ | ⟨⟨k, v⟩, fields⟩
      · exact ⟨rfl, List.append_cancel_left h⟩
      · simp [chars, quote] at h
  | .obj ((k, v) :: fields), w, _, _, _, _, h => by
      cases w <;> cases rank_eq_of_chars h
      rename_i others
      rcases others with _ | ⟨⟨l, w⟩, others⟩
      · simp [chars, quote] at h
      · simp only [chars, List.cons_append, List.cons.injEq, true_and, List.append_assoc] at h
        obtain ⟨rfl, hv⟩ := quote_append_inj h
        obtain ⟨rfl, ht⟩ := chars_append_inj v w (stops_tailFieldChars fields _)
          (stops_tailFieldChars others _) (List.cons.inj hv).2
        obtain ⟨rfl, hrest⟩ := tailFieldChars_append_inj fields others ht
        exact ⟨rfl, hrest⟩

theorem tailChars_append_inj : ∀ (xs ys : List Json) {rest rest' : List Char},
    tailChars xs ++ rest = tailChars ys ++ rest' → xs = ys ∧ rest = rest'
  | [], [], _, _, h => ⟨rfl, List.append_cancel_left h⟩
  | [], y :: ys, _, _, h => by simp [tailChars] at h
  | x :: xs, [], _, _, h => by simp [tailChars] at h
  | x :: xs, y :: ys, _, _, h => by
      simp only [tailChars, List.cons_append, List.cons.injEq, true_and, List.append_assoc] at h
      obtain ⟨rfl, ht⟩ := chars_append_inj x y (stops_tailChars xs _) (stops_tailChars ys _) h
      obtain ⟨rfl, hrest⟩ := tailChars_append_inj xs ys ht
      exact ⟨rfl, hrest⟩

theorem tailFieldChars_append_inj : ∀ (fields others : List (String × Json))
    {rest rest' : List Char}, tailFieldChars fields ++ rest = tailFieldChars others ++ rest' →
    fields = others ∧ rest = rest'
  | [], [], _, _, h => ⟨rfl, List.append_cancel_left h⟩
  | [], (l, w) :: others, _, _, h => by simp [tailFieldChars] at h
  | (k, v) :: fields, [], _, _, h => by simp [tailFieldChars] at h
  | (k, v) :: fields, (l, w) :: others, _, _, h => by
      simp only [tailFieldChars, List.cons_append, List.cons.injEq, true_and,
        List.append_assoc] at h
      obtain ⟨rfl, hv⟩ := quote_append_inj h
      obtain ⟨rfl, ht⟩ := chars_append_inj v w (stops_tailFieldChars fields _)
        (stops_tailFieldChars others _) (List.cons.inj hv).2
      obtain ⟨rfl, hrest⟩ := tailFieldChars_append_inj fields others ht
      exact ⟨rfl, hrest⟩

end

theorem chars_injective {v w : Json} (h : chars v = chars w) : v = w := by
  have hs : Stops [] := by simp [Stops]
  exact (chars_append_inj v w hs hs (by rw [h])).1

theorem text_injective {v w : Json} (h : v.text = w.text) : v = w :=
  chars_injective (String.ofList_inj.mp h)

/-! ## Line breaks -/

theorem not_mem_escapeChar (c : Char) : '\n' ∉ escapeChar c := by
  unfold escapeChar
  split
  all_goals try decide
  next _ _ _ _ hline _ _ =>
    split
    next =>
      have hdigit : ∀ d < 16, '\n' ≠ Nat.digitChar d := by decide
      have hhex : ∀ n, '\n' ≠ hexDigit n := fun n => hdigit _ (Nat.mod_lt n (by decide))
      simp [hhex]
    next => simpa using Ne.symm hline

theorem not_mem_quote (s : String) : '\n' ∉ quote s := by
  simp [quote, not_mem_escapeChar]

theorem not_mem_numberChars (n : Number) : '\n' ∉ n.chars := fun h =>
  absurd (Number.isNumberChar_of_mem_chars h) (by decide)

mutual

theorem not_mem_chars : ∀ v : Json, '\n' ∉ chars v
  | .null => by
      rw [chars]
      decide
  | .bool b => by
      rw [chars]
      cases b <;> decide
  | .num n => by
      rw [chars]
      exact not_mem_numberChars n
  | .str s => by
      rw [chars]
      exact not_mem_quote s
  | .arr [] => by
      rw [chars]
      decide
  | .arr (x :: xs) => by
      simp [chars, not_mem_chars x, not_mem_tailChars xs]
  | .obj [] => by
      rw [chars]
      decide
  | .obj ((k, v) :: fields) => by
      simp [chars, not_mem_quote k, not_mem_chars v, not_mem_tailFieldChars fields]

theorem not_mem_tailChars : ∀ xs : List Json, '\n' ∉ tailChars xs
  | [] => by
      rw [tailChars]
      decide
  | x :: xs => by
      simp [tailChars, not_mem_chars x, not_mem_tailChars xs]

theorem not_mem_tailFieldChars : ∀ fields : List (String × Json), '\n' ∉ tailFieldChars fields
  | [] => by
      rw [tailFieldChars]
      decide
  | (k, v) :: fields => by
      simp [tailFieldChars, not_mem_quote k, not_mem_chars v, not_mem_tailFieldChars fields]

end

end ResourceTypes.Json
