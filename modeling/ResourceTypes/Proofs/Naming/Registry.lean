import Mathlib.Data.Finset.Card
import ResourceTypes.Naming.Registry
import ResourceTypes.Proofs.Decimal

/-! # Names are handed out once

Numbered attempts are distinct, so one of them is free among any finite number of names. Every name
that the registry assigns is therefore new, and what it has assigned before stays as it is.
-/

namespace ResourceTypes.Naming

/-! ## Numbered attempts -/

theorem numbered_injective {name : String} {m n : Nat} (h : numbered name m = numbered name n) :
    m = n := by
  have hl := congrArg String.toList h
  cases m with
  | zero =>
      cases n with
      | zero => rfl
      | succ n => simp [numbered, Decimal.natChars_ne_nil] at hl
  | succ m =>
      cases n with
      | zero => simp [numbered, Decimal.natChars_ne_nil] at hl
      | succ n =>
          simp only [numbered, String.toList_append, String.toList_ofList] at hl
          have := Decimal.natChars_injective (List.append_cancel_left hl)
          omega

/-- The attempt that is returned stands behind taken ones only, and only the last of the tries may
be taken itself. -/
theorem firstFreeFrom_spec (taken : List String) (attempt : Nat → String) (tries n : Nat) :
    ∃ k ≤ tries, firstFreeFrom taken attempt tries n = attempt (n + k) ∧
      (∀ i < k, attempt (n + i) ∈ taken) ∧ (k < tries → attempt (n + k) ∉ taken) := by
  induction tries generalizing n with
  | zero => exact ⟨0, Nat.le_refl 0, rfl, by simp, by simp⟩
  | succ tries ih =>
      unfold firstFreeFrom
      by_cases h : attempt n ∈ taken
      · rw [if_pos h]
        obtain ⟨k, hk, heq, hbefore, hfree⟩ := ih (n + 1)
        refine ⟨k + 1, by omega, by rw [heq]; congr 1; omega, ?_, ?_⟩
        · intro i hi
          cases i with
          | zero => exact h
          | succ i =>
              have := hbefore i (by omega)
              rwa [Nat.add_assoc, Nat.add_comm 1 i] at this
        · intro hlt
          have := hfree (by omega)
          rwa [Nat.add_assoc, Nat.add_comm 1 k] at this
      · rw [if_neg h]
        exact ⟨0, Nat.zero_le _, rfl, by simp, fun _ => h⟩

/-- There are no more distinct attempts among the taken names than there are such names. -/
theorem le_card_of_taken {taken : List String} {attempt : Nat → String}
    (hinj : Function.Injective attempt) {k : Nat} (h : ∀ i < k, attempt i ∈ taken) :
    k ≤ taken.toFinset.card := by
  have hsubset : (Finset.range k).image attempt ⊆ taken.toFinset := by
    intro name hn
    obtain ⟨i, hi, rfl⟩ := Finset.mem_image.mp hn
    exact List.mem_toFinset.mpr (h i (Finset.mem_range.mp hi))
  have hcard := Finset.card_le_card hsubset
  rwa [Finset.card_image_of_injective _ hinj, Finset.card_range] at hcard

/-- Distinct attempts cannot all be taken. -/
theorem exists_not_mem_of_injective (taken : List String) {attempt : Nat → String}
    (hinj : ∀ {m n}, attempt m = attempt n → m = n) : ∃ k ≤ taken.length, attempt k ∉ taken := by
  by_contra hall
  simp only [not_exists, not_and, not_not] at hall
  have htaken : ∀ i < taken.length + 1, attempt i ∈ taken := fun i hi =>
    hall i (Nat.le_of_lt_succ hi)
  have hcard := le_card_of_taken (fun _ _ => hinj) htaken
  have hlength := taken.toFinset_card_le
  omega

/-- The first free attempt among distinct ones, which is found within one try more than there are
taken names. -/
theorem firstFree_spec (taken : List String) {attempt : Nat → String}
    (hinj : ∀ {m n}, attempt m = attempt n → m = n) :
    ∃ k ≤ taken.length, firstFree taken attempt = attempt k ∧ (∀ i < k, attempt i ∈ taken) ∧
      attempt k ∉ taken := by
  obtain ⟨k, hk, heq, hbefore, hfree⟩ := firstFreeFrom_spec taken attempt taken.length 0
  simp only [Nat.zero_add] at heq hbefore hfree
  refine ⟨k, hk, heq, hbefore, ?_⟩
  obtain ⟨j, hj, hnot⟩ := exists_not_mem_of_injective taken hinj
  by_cases hlt : k < taken.length
  · exact hfree hlt
  · have hjk : j = k := by
      by_contra hne
      exact hnot (hbefore j (by omega))
    exact hjk ▸ hnot

theorem firstFree_numbered_not_mem (taken : List String) (name : String) :
    firstFree taken (numbered name) ∉ taken := by
  obtain ⟨k, -, heq, -, hfree⟩ := firstFree_spec taken (@numbered_injective name)
  rw [heq]
  exact hfree

/-! ## The registry -/

namespace Registry

@[simp] theorem isReserved_iff {r : Registry} {name : String} :
    r.isReserved name = true ↔ name ∈ r.reserved := by
  simp [isReserved]

theorem reserve_of_mem {r : Registry} {name : String} (h : name ∈ r.reserved) :
    r.reserve name = r := by
  simp [reserve, h]

theorem reserve_of_not_mem {r : Registry} {name : String} (h : name ∉ r.reserved) :
    r.reserve name = ⟨r.names, name :: r.reserved⟩ := by
  simp [reserve, h]

@[simp] theorem reserve_names (r : Registry) (name : String) :
    (r.reserve name).names = r.names := by
  by_cases h : name ∈ r.reserved
  · rw [reserve_of_mem h]
  · rw [reserve_of_not_mem h]

theorem mem_reserve {r : Registry} {name other : String} :
    other ∈ (r.reserve name).reserved ↔ other = name ∨ other ∈ r.reserved := by
  by_cases h : name ∈ r.reserved
  · rw [reserve_of_mem h]
    constructor
    · exact Or.inr
    · rintro (rfl | h')
      · exact h
      · exact h'
  · rw [reserve_of_not_mem h, List.mem_cons]

theorem reserve_nodup {r : Registry} (name : String) (h : r.reserved.Nodup) :
    (r.reserve name).reserved.Nodup := by
  by_cases hm : name ∈ r.reserved
  · rwa [reserve_of_mem hm]
  · rw [reserve_of_not_mem hm]
    exact List.nodup_cons.mpr ⟨hm, h⟩

@[simp] theorem reserveAll_names (r : Registry) (names : List String) :
    (r.reserveAll names).names = r.names := by
  induction names generalizing r with
  | nil => rfl
  | cons name names ih => exact (ih (r.reserve name)).trans (reserve_names r name)

theorem mem_reserveAll {r : Registry} {names : List String} {other : String} :
    other ∈ (r.reserveAll names).reserved ↔ other ∈ names ∨ other ∈ r.reserved := by
  induction names generalizing r with
  | nil => simp [reserveAll]
  | cons name names ih =>
      refine (ih (r := r.reserve name)).trans ?_
      rw [mem_reserve, List.mem_cons]
      tauto

theorem reserveAll_nodup {r : Registry} (names : List String) (h : r.reserved.Nodup) :
    (r.reserveAll names).reserved.Nodup := by
  induction names generalizing r with
  | nil => exact h
  | cons name names ih => exact ih (reserve_nodup name h)

/-- Names that are taken already are taken again without effect. -/
theorem reserveAll_of_subset {r : Registry} {names : List String}
    (h : ∀ name ∈ names, name ∈ r.reserved) : r.reserveAll names = r := by
  induction names with
  | nil => rfl
  | cons name names ih =>
      have hr := reserve_of_mem (h name List.mem_cons_self)
      have hrest := ih fun other ho => h other (List.mem_cons_of_mem name ho)
      exact (congrArg (·.reserveAll names) hr).trans hrest

theorem freeName_not_mem (r : Registry) (c : Candidates) : r.freeName c ∉ r.reserved := by
  unfold freeName
  split
  next name h =>
    have hn := List.find?_some h
    simp only [Bool.and_eq_true, Bool.not_eq_true', ← Bool.not_eq_true, isReserved_iff] at hn
    exact hn.2
  next => exact firstFree_numbered_not_mem r.reserved c.fallback

theorem assign_of_some {r : Registry} {signature : Signature} {name : String}
    (h : r.names.lookup signature = some name) (c : Candidates) :
    r.assign signature c = ⟨name, false, r⟩ := by
  rw [assign, h]

theorem assign_of_none {r : Registry} {signature : Signature}
    (h : r.names.lookup signature = none) (c : Candidates) :
    r.assign signature c = ⟨r.freeName c, true,
      ⟨(signature, r.freeName c) :: r.names, r.freeName c :: r.reserved⟩⟩ := by
  rw [assign, h]

/-- A shape with a name keeps it, and one without gets a name that nobody holds. -/
theorem assign_cases (r : Registry) (signature : Signature) (c : Candidates) :
    (∃ name, r.names.lookup signature = some name ∧ r.assign signature c = ⟨name, false, r⟩) ∨
    (∃ name, r.names.lookup signature = none ∧ name ∉ r.reserved ∧ r.assign signature c =
      ⟨name, true, ⟨(signature, name) :: r.names, name :: r.reserved⟩⟩) := by
  cases h : r.names.lookup signature with
  | some name => exact .inl ⟨name, rfl, assign_of_some h c⟩
  | none => exact .inr ⟨r.freeName c, rfl, freeName_not_mem r c, assign_of_none h c⟩

end Registry

end ResourceTypes.Naming
