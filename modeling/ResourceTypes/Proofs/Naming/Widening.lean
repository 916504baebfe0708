import ResourceTypes.Proofs.Naming.Registry

/-! # More names taken from the start

A registry in which more names are taken finds the same free name, unless that name is one of the
additional ones: whatever was passed over is passed over again, and what was free still is.
-/

namespace ResourceTypes.Naming

/-- Where more is taken, the same attempt is the first free one as long as it is still free. -/
theorem firstFree_congr {taken more : List String} {attempt : Nat → String}
    (hinj : ∀ {m n}, attempt m = attempt n → m = n) (hs : taken ⊆ more)
    (hfree : firstFree taken attempt ∉ more) :
    firstFree more attempt = firstFree taken attempt := by
  obtain ⟨k, -, hk, hbefore, -⟩ := firstFree_spec taken hinj
  obtain ⟨k', -, hk', hbefore', hfree'⟩ := firstFree_spec more hinj
  rw [hk] at hfree
  have hle : k ≤ k' := by
    by_contra hlt
    exact hfree' (hs (hbefore k' (by omega)))
  have hge : k' ≤ k := by
    by_contra hlt
    exact hfree (hbefore' k (by omega))
  rw [hk, hk', Nat.le_antisymm hle hge]

namespace Registry

/-- Whether a registry has the same names of shapes as another one, and some more names taken. -/
structure Widens (r : Registry) (extra : List String) (wider : Registry) : Prop where
  names : wider.names = r.names
  reserved : ∀ name, name ∈ wider.reserved ↔ name ∈ r.reserved ∨ name ∈ extra

def Avoids (r : Registry) (extra : List String) : Prop :=
  ∀ name ∈ extra, name ∉ r.names.map (·.2)

variable {r wider : Registry} {extra : List String}

theorem Avoids.subset {older : Registry} (h : r.Avoids extra) (hs : older.names ⊆ r.names) :
    older.Avoids extra :=
  fun name hn hm => h name hn (List.map_subset _ hs hm)

theorem Widens.reserveAll (h : r.Widens extra wider) (names : List String) :
    (r.reserveAll names).Widens extra (wider.reserveAll names) where
  names := by rw [reserveAll_names, reserveAll_names, h.names]
  reserved := fun name => by rw [mem_reserveAll, mem_reserveAll, h.reserved, or_assoc]

theorem freeName_of_candidate {c : Candidates} {before after : List String} {name : String}
    (hc : c.ordered = before ++ name :: after)
    (hb : ∀ other ∈ before, other = "" ∨ other ∈ r.reserved)
    (hn : name ≠ "" ∧ name ∉ r.reserved) : r.freeName c = name := by
  have hf : c.ordered.find? (fun name => name ≠ "" && !r.isReserved name) = some name :=
    List.find?_eq_some_iff_append.mpr ⟨by simpa [isReserved] using hn, before, after, hc,
      by simpa [isReserved, or_iff_not_imp_left] using hb⟩
  rw [freeName, hf]

theorem freeName_of_no_candidate {c : Candidates}
    (h : ∀ other ∈ c.ordered, other = "" ∨ other ∈ r.reserved) :
    r.freeName c = firstFree r.reserved (numbered c.fallback) := by
  have hf : c.ordered.find? (fun name => name ≠ "" && !r.isReserved name) = none := by
    simpa [isReserved, or_iff_not_imp_left] using h
  rw [freeName, hf]

/-- Either a candidate is usable, and the first usable one is taken, or none is. -/
theorem candidate_cases (r : Registry) (c : Candidates) :
    (∃ before name after, c.ordered = before ++ name :: after ∧
      (∀ other ∈ before, other = "" ∨ other ∈ r.reserved) ∧ name ≠ "" ∧ name ∉ r.reserved) ∨
    ∀ other ∈ c.ordered, other = "" ∨ other ∈ r.reserved := by
  cases hf : c.ordered.find? fun name => name ≠ "" && !r.isReserved name with
  | some name =>
      obtain ⟨hn, before, after, hc, hb⟩ := List.find?_eq_some_iff_append.mp hf
      exact .inl ⟨before, name, after, hc, by simpa [isReserved, or_iff_not_imp_left] using hb,
        by simpa [isReserved] using hn⟩
  | none => exact .inr (by simpa [isReserved, or_iff_not_imp_left] using hf)

theorem Widens.freeName (h : r.Widens extra wider) {c : Candidates}
    (hfree : r.freeName c ∉ extra) : wider.freeName c = r.freeName c := by
  have hpassed : ∀ {other}, other = "" ∨ other ∈ r.reserved → other = "" ∨ other ∈ wider.reserved :=
    fun ho => ho.imp_right fun hr => (h.reserved _).mpr (.inl hr)
  have hstill : ∀ {name}, name ∉ r.reserved → name ∉ extra → name ∉ wider.reserved := by
    intro name hr he hw
    exact ((h.reserved name).mp hw).elim hr he
  rcases r.candidate_cases c with ⟨before, name, after, hc, hb, hn⟩ | hnone
  · rw [freeName_of_candidate hc hb hn] at hfree ⊢
    exact freeName_of_candidate hc (fun other ho => hpassed (hb other ho)) ⟨hn.1, hstill hn.2 hfree⟩
  · rw [freeName_of_no_candidate hnone] at hfree ⊢
    rw [freeName_of_no_candidate fun other ho => hpassed (hnone other ho)]
    exact firstFree_congr numbered_injective (fun name hn => (h.reserved name).mpr (.inl hn))
      (hstill (firstFree_numbered_not_mem r.reserved c.fallback) hfree)

/-- A shape with a name has it in both registries. One without gets the same name in both, unless
the name is one of the additional ones. -/
theorem Widens.assign_cases (h : r.Widens extra wider) (signature : Signature) (c : Candidates) :
    (∃ name, r.assign signature c = ⟨name, false, r⟩ ∧
      wider.assign signature c = ⟨name, false, wider⟩) ∨
    ∃ name, r.assign signature c =
        ⟨name, true, ⟨(signature, name) :: r.names, name :: r.reserved⟩⟩ ∧
      (name ∉ extra → ∃ wider', wider.assign signature c = ⟨name, true, wider'⟩ ∧
        Widens ⟨(signature, name) :: r.names, name :: r.reserved⟩ extra wider') := by
  unfold assign
  rw [h.names]
  cases hl : r.names.lookup signature with
  | some name => exact .inl ⟨name, rfl, rfl⟩
  | none =>
      refine .inr ⟨r.freeName c, rfl, fun hfree => ?_⟩
      refine ⟨⟨(signature, r.freeName c) :: r.names, r.freeName c :: wider.reserved⟩, ?_, rfl, ?_⟩
      · simp only [h.freeName hfree]
      · intro name
        rw [List.mem_cons, List.mem_cons, h.reserved, or_assoc]

end Registry

end ResourceTypes.Naming
