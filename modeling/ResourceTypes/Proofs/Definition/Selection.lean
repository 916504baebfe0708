import ResourceTypes.Definition.Basic

/-! # The version that is compiled

A version fits when it is stored and has the desired name, if one is desired. The first one that
fits is compiled, and the only errors are that there is none and that it has no schema.
-/

namespace ResourceTypes

def Version.Fits (desired : Option String) (version : Version) : Prop :=
  version.storage = true ∧ ∀ name ∈ desired, version.name = name

namespace Definition

def Picks (d : Definition) (desired : Option String) (version : Version) : Prop :=
  ∃ before after, d.versions = before ++ version :: after ∧ version.Fits desired ∧
    ∀ other ∈ before, ¬other.Fits desired

/-- Whether a definition has a version to compile, of a given name and for a given group. -/
def Offers (d : Definition) (desired : Option String) (group version : String) : Prop :=
  d.group = group ∧ ∃ v, d.Picks desired v ∧ v.schema ≠ none ∧ v.name = version

theorem fits_iff {desired : Option String} {v : Version} :
    (v.storage && desired.all (· = v.name)) = true ↔ v.Fits desired := by
  cases desired with
  | none => simp [Version.Fits]
  | some name => simp [Version.Fits, eq_comm (a := name)]

theorem candidate_eq_some_iff {d : Definition} {desired : Option String} {v : Version} :
    d.candidate? desired = some v ↔ d.Picks desired v := by
  rw [candidate?, List.find?_eq_some_iff_append, fits_iff]
  simp only [Bool.not_eq_true', ← Bool.not_eq_true, fits_iff]
  constructor
  · rintro ⟨hv, before, after, hd, hb⟩
    exact ⟨before, after, hd, hv, hb⟩
  · rintro ⟨before, after, hd, hv, hb⟩
    exact ⟨hv, before, after, hd, hb⟩

theorem candidate_eq_none_iff {d : Definition} {desired : Option String} :
    d.candidate? desired = none ↔ ∀ v, ¬d.Picks desired v := by
  simp only [Option.eq_none_iff_forall_ne_some, ne_eq, candidate_eq_some_iff]

theorem Picks.unique {d : Definition} {desired : Option String} {v w : Version}
    (hv : d.Picks desired v) (hw : d.Picks desired w) : v = w :=
  Option.some.inj ((candidate_eq_some_iff.mpr hv).symm.trans (candidate_eq_some_iff.mpr hw))

theorem Picks.name_eq {d : Definition} {name : String} {v : Version}
    (h : d.Picks (some name) v) : v.name = name := by
  obtain ⟨-, -, -, hv, -⟩ := h
  exact hv.2 name rfl

theorem storageVersion_eq_some_iff {d : Definition} {v : Version} :
    d.storageVersion? = some v ↔ d.Picks none v := by
  rw [← candidate_eq_some_iff]
  simp [storageVersion?, candidate?]

theorem storageVersion_eq_none_iff {d : Definition} :
    d.storageVersion? = none ↔ ∀ v, ¬d.Picks none v := by
  simp only [Option.eq_none_iff_forall_ne_some, ne_eq, storageVersion_eq_some_iff]

/-- Where a stored version is not the desired one, it has another name. -/
theorem name_ne_of_not_picks {d : Definition} {desired : Option String} {v : Version}
    (hn : ∀ w, ¬d.Picks desired w) (hv : d.Picks none v) : ∀ name ∈ desired, v.name ≠ name := by
  rintro name hname rfl
  obtain ⟨before, after, hd, hfits, -⟩ := hv
  have hfound : ∃ w, d.candidate? desired = some w := by
    rw [← Option.isSome_iff_exists, candidate?, List.find?_isSome]
    refine ⟨v, by rw [hd]; simp, fits_iff.mpr ⟨hfits.1, ?_⟩⟩
    intro other ho
    exact Option.some.inj (hname.symm.trans ho)
  obtain ⟨w, hw⟩ := hfound
  exact hn w (candidate_eq_some_iff.mp hw)

theorem select_eq_ok_iff {d : Definition} {desired : Option String} {v : Version}
    {schema : Schema} :
    d.select desired = .ok (v, schema) ↔ d.Picks desired v ∧ v.schema = some schema := by
  unfold select
  split
  next hn =>
    rw [candidate_eq_none_iff] at hn
    simp [hn v]
  next w hw =>
    have hpicks := candidate_eq_some_iff.mp hw
    split
    next hs =>
      simp only [reduceCtorEq, false_iff, not_and]
      intro hv
      rw [← hpicks.unique hv, hs]
      simp
    next found hs =>
      simp only [Except.ok.injEq, Prod.mk.injEq]
      constructor
      · rintro ⟨rfl, rfl⟩
        exact ⟨hpicks, hs⟩
      · rintro ⟨hv, hschema⟩
        obtain rfl := hpicks.unique hv
        exact ⟨rfl, Option.some.inj (hs.symm.trans hschema)⟩

theorem select_eq_error_iff {d : Definition} {desired : Option String} {error : DefinitionError} :
    d.select desired = .error error ↔
      ((∀ v, ¬d.Picks desired v) ∧ error = .noMatchingVersion d.kind desired) ∨
        ∃ v, d.Picks desired v ∧ v.schema = none ∧ error = .missingSchema d.kind v.name := by
  unfold select
  split
  next hn =>
    rw [candidate_eq_none_iff] at hn
    simp [hn, eq_comm]
  next w hw =>
    have hpicks := candidate_eq_some_iff.mp hw
    have hnot : ¬∀ v, ¬d.Picks desired v := fun h => h w hpicks
    split
    next hs =>
      simp only [Except.error.injEq, hnot, false_and, false_or]
      constructor
      · rintro rfl
        exact ⟨w, hpicks, hs, rfl⟩
      · rintro ⟨v, hv, -, rfl⟩
        rw [hpicks.unique hv]
    next found hs =>
      simp only [reduceCtorEq, hnot, false_and, false_or, false_iff, not_exists, not_and]
      intro v hv hnone
      rw [← hpicks.unique hv, hs] at hnone
      cases hnone

end Definition

end ResourceTypes
