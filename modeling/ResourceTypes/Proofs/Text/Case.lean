import ResourceTypes.Proofs.Naming.Identifiers
import ResourceTypes.Proofs.Sorted

/-! # What the case maps leave alone

Lower and upper case turn letters into other characters and leave the rest alone. In particular they
never make a slash, a point or a line break: each of those was there before.
-/

namespace ResourceTypes.Text

def IsMark (c : Char) : Prop :=
  0 < c.toNat ∧ c.toNat ≤ 64

instance (c : Char) : Decidable (IsMark c) :=
  inferInstanceAs (Decidable (_ ∧ _))

theorem not_isMark_ofNat {n : Nat} (h : 64 < n) : ¬IsMark (Char.ofNat n) := by
  intro hmark
  rw [Char.ofNat] at hmark
  by_cases hvalid : n.isValidChar
  · rw [dif_pos hvalid] at hmark
    exact Nat.not_le_of_lt h hmark.2
  · rw [dif_neg hvalid] at hmark
    exact Nat.lt_irrefl _ hmark.1

/-- Runs that do not lead below the letters make no mark. -/
theorem eq_of_mapRuns {runs : List Run} (hruns : ∀ run ∈ runs, 64 < (run.first : Int) + run.shift)
    {mark c : Char} (hm : IsMark mark) (h : mark = mapRuns runs c) : mark = c := by
  rw [mapRuns] at h
  split at h
  next run hrun =>
    have hfirst := hruns run (List.mem_of_find?_eq_some hrun)
    have hcovers := List.find?_some hrun
    simp only [Run.covers, Bool.and_eq_true, decide_eq_true_eq] at hcovers
    have hnone : ¬IsMark (Char.ofNat (c.toNat + run.shift).toNat) := not_isMark_ofNat (by omega)
    exact (hnone (h ▸ hm)).elim
  next => exact h

theorem eq_of_mem_lower {mark c : Char} (hm : IsMark mark) (h : mark ∈ lower c) : mark = c := by
  unfold lower at h
  split at h
  next hascii =>
    have hall : ∀ n < 128, IsMark (Char.ofNat n).toLower →
        (Char.ofNat n).toLower = Char.ofNat n := by decide
    have hsame := Naming.ascii_cases (P := fun c => IsMark c.toLower → c.toLower = c) hall hascii
    rw [List.mem_singleton] at h
    exact h.trans (hsame (h ▸ hm))
  next =>
    split at h
    next =>
      rcases List.mem_cons.mp h with rfl | h
      · exact (absurd hm (by decide))
      · rw [List.mem_singleton.mp h] at hm
        exact absurd hm (by decide)
    next =>
      have hruns : ∀ run ∈ lowerRuns, 64 < (run.first : Int) + run.shift := by
        decide +kernel
      exact eq_of_mapRuns hruns hm (List.mem_singleton.mp h)

theorem eq_of_mem_upper {mark c : Char} (hm : IsMark mark) (h : mark ∈ upper c) : mark = c := by
  unfold upper at h
  split at h
  next hascii =>
    have hall : ∀ n < 128, IsMark (Char.ofNat n).toUpper →
        (Char.ofNat n).toUpper = Char.ofNat n := by decide
    have hsame := Naming.ascii_cases (P := fun c => IsMark c.toUpper → c.toUpper = c) hall hascii
    rw [List.mem_singleton] at h
    exact h.trans (hsame (h ▸ hm))
  next =>
    split at h
    next codes hcodes =>
      have hexpansions : ∀ e ∈ upperExpansions, ∀ code ∈ e.2, 64 < code := by
        decide +kernel
      obtain ⟨code, hcode, rfl⟩ := List.mem_map.mp h
      have hmem := Keyed.mem_of_lookup hcodes
      exact (not_isMark_ofNat (hexpansions _ hmem code hcode) hm).elim
    next =>
      have hruns : ∀ run ∈ upperRuns, 64 < (run.first : Int) + run.shift := by
        decide +kernel
      exact eq_of_mapRuns hruns hm (List.mem_singleton.mp h)

theorem mem_of_mem_lowerAfter {mark : Char} (hm : IsMark mark) {before cs : List Char}
    (h : mark ∈ lowerAfter before cs) : mark ∈ cs := by
  induction cs generalizing before with
  | nil => exact h
  | cons c rest ih =>
      rw [lowerAfter] at h
      rcases List.mem_append.mp h with h | h
      · split at h
        next =>
          -- both forms of a small sigma are letters
          have hsigma : mark = Char.ofNat 0x3C2 ∨ mark = Char.ofNat 0x3C3 := by
            split at h
            · exact .inl (List.mem_singleton.mp h)
            · exact .inr (List.mem_singleton.mp h)
          rcases hsigma with rfl | rfl
          · exact (not_isMark_ofNat (by decide) hm).elim
          · exact (not_isMark_ofNat (by decide) hm).elim
        next => exact eq_of_mem_lower hm h ▸ List.mem_cons_self
      · exact List.mem_cons_of_mem _ (ih h)

/-- A mark in the lower case of a text was in the text. -/
theorem mem_of_mem_lowercase {mark : Char} (hm : IsMark mark) {s : String}
    (h : mark ∈ (lowercase s).toList) : mark ∈ s.toList := by
  rw [lowercase, String.toList_ofList] at h
  exact mem_of_mem_lowerAfter hm h

theorem mem_of_mem_camelFrom {mark : Char} (hm : IsMark mark) {start : Bool} {cs : List Char}
    (h : mark ∈ Naming.camelFrom start cs) : mark ∈ cs ∧ isAlphanumeric mark = true := by
  induction cs generalizing start with
  | nil => cases h
  | cons c rest ih =>
      rw [Naming.camelFrom] at h
      split at h
      next hword =>
        rcases List.mem_append.mp h with h | h
        · obtain rfl : mark = c := by
            split at h
            · exact eq_of_mem_upper hm h
            · exact List.mem_singleton.mp h
          exact ⟨List.mem_cons_self, hword⟩
        · exact (ih h).imp_left (List.mem_cons_of_mem _)
      next => exact (ih h).imp_left (List.mem_cons_of_mem _)

theorem lower_of_isMark {mark : Char} (hm : IsMark mark) : lower mark = [mark] := by
  have hascii : mark.toNat < 128 := Nat.lt_of_le_of_lt hm.2 (by decide)
  have hall : ∀ n < 128, IsMark (Char.ofNat n) → (Char.ofNat n).toLower = Char.ofNat n := by decide
  have hsame := Naming.ascii_cases (P := fun c => IsMark c → c.toLower = c) hall hascii
  rw [lower, if_pos hascii, hsame hm]

theorem mem_lowerAfter_of_mem {mark : Char} (hm : IsMark mark) {before cs : List Char}
    (h : mark ∈ cs) : mark ∈ lowerAfter before cs := by
  induction cs generalizing before with
  | nil => cases h
  | cons c rest ih =>
      rw [lowerAfter]
      rcases List.mem_cons.mp h with rfl | h
      · have hsigma : mark.toNat ≠ 0x3A3 := fun he => absurd (he ▸ hm.2) (by decide)
        rw [if_neg hsigma, lower_of_isMark hm]
        exact List.mem_append_left _ (List.mem_singleton_self _)
      · exact List.mem_append_right _ (ih h)

/-- A mark of a text is left in its lower case. -/
theorem mem_lowercase_of_mem {mark : Char} (hm : IsMark mark) {s : String} (h : mark ∈ s.toList) :
    mark ∈ (lowercase s).toList := by
  rw [lowercase, String.toList_ofList]
  exact mem_lowerAfter_of_mem hm h

end ResourceTypes.Text
