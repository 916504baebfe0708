import ResourceTypes.Proofs.Code.Lines
import ResourceTypes.Proofs.Naming.Literals

/-! # Names of constants in upper case

The name of a constant item is folded: an underscore stands between words, and all letters are
capitals. Whatever the words are, the letters and digits stay, so two names that are folded to one
have the same letters and digits up to their case. What numbers and truth values add to a name is
known from its capitals. Two enumerations can only meet in a name if the letters of one begin with
those of the other.
-/

namespace ResourceTypes.Code

open Naming

def letters (s : String) : List Char :=
  (s.toList.filter Char.isAlphanum).map Char.toUpper

/-- Whether the letters of one text begin with those of the other. -/
def Overlap (s t : String) : Prop :=
  letters s <+: letters t ∨ letters t <+: letters s

instance (s t : String) : Decidable (Overlap s t) :=
  inferInstanceAs (Decidable (_ ∨ _))

/-! ## Case -/

/-- Beyond ASCII the case of a character is left alone. -/
theorem caseless_of_not_ascii {c : Char} (h : ¬c.toNat < 128) :
    c.toLower = c ∧ c.toUpper = c := by
  have hbound : ∀ d : Char, d.toNat < 128 → ¬c.val ≤ d.val := fun d hd hle =>
    h (Nat.lt_of_le_of_lt (UInt32.le_iff_toNat_le.mp hle) hd)
  exact ⟨dif_neg fun hc => hbound 'Z' (by decide) hc.2,
    dif_neg fun hc => hbound 'z' (by decide) hc.2⟩

theorem isAlphanum_toLower (c : Char) : c.toLower.isAlphanum = c.isAlphanum := by
  by_cases h : c.toNat < 128
  · have hall : ∀ n < 128, (Char.ofNat n).toLower.isAlphanum = (Char.ofNat n).isAlphanum := by
      decide
    exact ascii_cases (P := fun c => c.toLower.isAlphanum = c.isAlphanum) hall h
  · rw [(caseless_of_not_ascii h).1]

theorem isAlphanum_capital (c : Char) : c.toUpper.isAlphanum = c.isAlphanum := by
  by_cases h : c.toNat < 128
  · exact isAlphanum_toUpper h
  · rw [(caseless_of_not_ascii h).2]

theorem toUpper_toLower {c : Char} (h : c.isAlphanum = true) : c.toLower.toUpper = c.toUpper := by
  have hall : ∀ n < 128, (Char.ofNat n).toLower.toUpper = (Char.ofNat n).toUpper := by decide
  exact ascii_cases (P := fun c => c.toLower.toUpper = c.toUpper) hall (toNat_lt_of_isAlphanum h)

/-! ## Folding -/

theorem filter_breakAcronyms (capital : Bool) (cs : List Char) :
    (breakAcronyms capital cs).filter Char.isAlphanum = cs.filter Char.isAlphanum := by
  fun_induction breakAcronyms capital cs with
  | case1 => rfl
  | case2 => rfl
  | case3 capital c d rest others hbreak ih =>
      rw [List.filter_cons_of_neg (by decide), List.filter_cons, List.filter_cons, ih]
  | case4 capital c d rest others hbreak ih =>
      rw [List.filter_cons, List.filter_cons, ih]

theorem filter_breakWords (cs : List Char) :
    (breakWords cs).filter Char.isAlphanum = cs.filter Char.isAlphanum := by
  fun_induction breakWords cs with
  | case1 => rfl
  | case2 => rfl
  | case3 c d rest others hbreak ih =>
      rw [List.filter_cons, List.filter_cons_of_neg (by decide), List.filter_cons, ih]
  | case4 c d rest others hbreak ih =>
      rw [List.filter_cons, List.filter_cons, ih]

theorem filter_joinOthers (inside : Bool) (cs : List Char) :
    (joinOthers inside cs).filter Char.isAlphanum = cs.filter Char.isAlphanum := by
  fun_induction joinOthers inside cs with
  | case1 => rfl
  | case2 inside c rest h ih =>
      rw [List.filter_cons_of_pos h, List.filter_cons_of_pos h, ih]
  | case3 c rest h ih =>
      rw [List.filter_cons_of_neg h, ih]
  | case4 inside c rest h hinside ih =>
      rw [List.filter_cons_of_neg (by decide), List.filter_cons_of_neg h, ih]

theorem filter_dropUnderscores (cs : List Char) :
    (cs.dropWhile (· = '_')).filter Char.isAlphanum = cs.filter Char.isAlphanum := by
  induction cs with
  | nil => rfl
  | cons c cs ih =>
      rw [List.dropWhile_cons]
      split
      next h =>
        rw [ih, of_decide_eq_true h, List.filter_cons_of_neg (by decide)]
      next => rfl

theorem filter_trimUnderscores (cs : List Char) :
    (trimUnderscores cs).filter Char.isAlphanum = cs.filter Char.isAlphanum := by
  rw [trimUnderscores, List.filter_reverse, filter_dropUnderscores, List.filter_reverse,
    List.reverse_reverse, filter_dropUnderscores]

/-- Words in lower case keep all letters and digits. -/
theorem filter_snakeChars (cs : List Char) :
    (snakeChars cs).filter Char.isAlphanum = (cs.filter Char.isAlphanum).map Char.toLower := by
  have hlower : Char.isAlphanum ∘ Char.toLower = Char.isAlphanum := funext isAlphanum_toLower
  rw [snakeChars, List.filter_map, hlower, filter_trimUnderscores, filter_joinOthers,
    filter_breakWords, filter_breakAcronyms]

/-- Folding keeps all letters and digits. -/
theorem filter_constName (name : String) :
    (constName name).toList.filter Char.isAlphanum = letters name := by
  have hupper : Char.isAlphanum ∘ Char.toUpper = Char.isAlphanum := funext isAlphanum_capital
  rw [constName, String.toList_map, List.filter_map, hupper, snakeCase, String.toList_ofList,
    filter_snakeChars, letters, List.map_map]
  refine List.map_congr_left fun c hc => ?_
  exact toUpper_toLower (List.of_mem_filter hc)

theorem letters_eq_of_constName {name other : String} (h : constName name = constName other) :
    letters name = letters other := by
  rw [← filter_constName, ← filter_constName, h]

theorem letters_append (s t : String) : letters (s ++ t) = letters s ++ letters t := by
  rw [letters, String.toList_append, List.filter_append, List.map_append]
  rfl

/-- What numbers and truth values add to a name is known from its letters. -/
theorem letters_injective {s t : String} (hs : LiteralText s.toList) (ht : LiteralText t.toList)
    (h : letters s = letters t) : s = t := by
  have hkeep : ∀ {cs : List Char}, LiteralText cs → cs.filter Char.isAlphanum = cs :=
    fun hcs => List.filter_eq_self.mpr fun c hc => isAlphanum_literalChars c (hcs c hc)
  rw [letters, letters, hkeep hs, hkeep ht] at h
  have hmap := congrArg (List.map ofCapital) h
  rw [hs.map_ofCapital, ht.map_ofCapital] at hmap
  exact String.toList_inj.mp hmap

/-- Names of one enumeration that add numbers or truth values are kept apart. -/
theorem constName_injective {enumName s t : String} (hs : LiteralText s.toList)
    (ht : LiteralText t.toList) (h : constName (enumName ++ s) = constName (enumName ++ t)) :
    enumName ++ s = enumName ++ t := by
  have hletters := letters_eq_of_constName h
  rw [letters_append, letters_append] at hletters
  rw [letters_injective hs ht (List.append_cancel_left hletters)]

/-- Two enumerations share a folded name only if the letters of one begin with those of the
other. -/
theorem overlap_of_constName {enumName other s t : String}
    (h : constName (enumName ++ s) = constName (other ++ t)) : Overlap enumName other := by
  have hletters := letters_eq_of_constName h
  rw [letters_append, letters_append] at hletters
  have hother : letters other <+: letters enumName ++ letters s := by
    rw [hletters]
    exact List.prefix_append _ _
  exact List.prefix_or_prefix_of_prefix (List.prefix_append _ _) hother

end ResourceTypes.Code
