import Mathlib.Data.List.DropRight
import Mathlib.Data.List.GetD
import ResourceTypes.Proofs.Naming.Identifiers
import ResourceTypes.Proofs.Naming.Widening

/-! # Searches for a name

A search makes one attempt after the other until a name is usable. Distinct attempts cannot all be
taken, so a search among them ends, after one attempt more than there are taken names at the latest.
The registry searches all names for a type in the order of preference: first the names that are
built from the field, the kind and the path, then the numbered fallbacks, which have no end.
-/

namespace ResourceTypes.Naming

/-! ## Attempts until a name is usable -/

/-- A search from the attempt with number `n` on, how many attempts it makes and the name that it
finds. A name that is not usable leads to the next attempt. -/
inductive Search (usable : String → Prop) (attempt : Nat → String) : Nat → Nat → String → Prop
  | found {n : Nat} (free : usable (attempt n)) : Search usable attempt n 1 (attempt n)
  | passed {n tries : Nat} {name : String} (held : ¬usable (attempt n))
      (later : Search usable attempt (n + 1) tries name) : Search usable attempt n (tries + 1) name

/-- The first usable name is found. -/
theorem Search.of_first {usable : String → Prop} {attempt : Nat → String} {n k : Nat}
    (hbefore : ∀ i < k, ¬usable (attempt (n + i))) (hfree : usable (attempt (n + k))) :
    Search usable attempt n (k + 1) (attempt (n + k)) := by
  induction k generalizing n with
  | zero => exact .found hfree
  | succ k ih =>
      have hshift : ∀ i, n + (i + 1) = n + 1 + i := fun i => by omega
      rw [hshift] at hfree ⊢
      exact .passed (hbefore 0 (Nat.succ_pos k))
        (ih (fun i hi => hshift i ▸ hbefore (i + 1) (Nat.succ_lt_succ hi)) hfree)

/-- A search among distinct attempts for a name that is not taken ends. -/
theorem firstFree_search (taken : List String) {attempt : Nat → String}
    (hinj : Function.Injective attempt) : ∃ tries ≤ taken.toFinset.card + 1,
      Search (· ∉ taken) attempt 0 tries (firstFree taken attempt) := by
  obtain ⟨k, -, heq, hbefore, hfree⟩ := firstFree_spec taken (@hinj)
  have hk : k ≤ taken.toFinset.card := le_card_of_taken hinj hbefore
  have hsearch : Search (· ∉ taken) attempt 0 (k + 1) (attempt (0 + k)) :=
    .of_first (fun i hi => by simpa using hbefore i hi) (by simpa using hfree)
  rw [Nat.zero_add, ← heq] at hsearch
  exact ⟨k + 1, Nat.succ_le_succ hk, hsearch⟩

/-! ## The order of preference -/

namespace Candidates

/-- The words of the last keys of the path, in the order of the path. -/
def lastWords (c : Candidates) (count : Nat) : String :=
  String.join ((c.path.rtake count).map camelCase)

/-- The names that are built from the field, the kind and the path. -/
def built (c : Candidates) : List String :=
  (if c.allowBare then [c.fieldName] else []) ++
    (c.kind ++ c.fieldName) ::
      (List.range c.path.length).map fun k => c.lastWords (k + 1) ++ c.fieldName

/-- All names for a type in the order of preference. -/
def preference (c : Candidates) (n : Nat) : String :=
  c.built.getD n (numbered c.fallback (n - c.built.length))

/-- Each of the prefixed names has the words of one key more in front. -/
theorem prefixed_eq (fieldName joined : String) (keys : List String) :
    prefixed fieldName joined keys = (List.range keys.length).map fun k =>
      String.join ((keys.take (k + 1)).reverse.map camelCase) ++ joined ++ fieldName := by
  induction keys generalizing joined with
  | nil => rfl
  | cons key rest ih =>
      rw [prefixed, ih, List.length_cons, List.range_succ_eq_map, List.map_cons, List.map_map]
      refine congrArg₂ List.cons ?_ (List.map_congr_left fun k _ => ?_)
      · simp
      · simp only [Function.comp, Nat.succ_eq_add_one, List.take_succ_cons, List.reverse_cons,
          List.map_append, List.map_cons, List.map_nil, String.join_append, String.join_cons,
          String.join_nil, String.append_empty, String.append_assoc]

theorem ordered_eq_built (c : Candidates) : c.ordered = c.built := by
  have hprefixed : prefixed c.fieldName "" c.path.reverse =
      (List.range c.path.length).map fun k => c.lastWords (k + 1) ++ c.fieldName := by
    rw [prefixed_eq, List.length_reverse]
    refine List.map_congr_left fun k _ => ?_
    rw [String.append_empty, ← List.rtake_eq_reverse_take_reverse, lastWords]
  rw [ordered, built, hprefixed]

theorem length_built_le (c : Candidates) : c.built.length ≤ c.path.length + 2 := by
  have hbare : (if c.allowBare then [c.fieldName] else []).length ≤ 1 := by
    split <;> simp
  rw [built, List.length_append, List.length_cons, List.length_map, List.length_range]
  omega

theorem preference_of_lt {c : Candidates} {n : Nat} (h : n < c.built.length) :
    c.preference n = c.built[n] := by
  rw [preference, List.getD_eq_getElem _ _ h]

theorem preference_fallback (c : Candidates) (k : Nat) :
    c.preference (c.built.length + k) = numbered c.fallback k := by
  rw [preference, List.getD_eq_default _ _ (Nat.le_add_right _ _), Nat.add_sub_cancel_left]

end Candidates

namespace Registry

/-- Whether a type that has no name may get this one. -/
def Usable (r : Registry) (name : String) : Prop :=
  name ≠ "" ∧ name ∉ r.reserved

variable {r : Registry} {c : Candidates}

/-- A search ends with the first usable one of the names that are built. -/
theorem search_built {before after : List String} {name : String}
    (hc : c.built = before ++ name :: after)
    (hbefore : ∀ other ∈ before, other = "" ∨ other ∈ r.reserved) (hfree : r.Usable name) :
    Search r.Usable c.preference 0 (before.length + 1) name := by
  have hl : c.built.length = before.length + (after.length + 1) := by
    rw [hc, List.length_append, List.length_cons]
  have hname : c.preference (0 + before.length) = name := by
    rw [Nat.zero_add, Candidates.preference_of_lt (by omega)]
    simp [hc]
  have hpassed : ∀ i < before.length, ¬r.Usable (c.preference (0 + i)) := by
    intro i hi husable
    have hmem : c.preference (0 + i) ∈ before := by
      rw [Nat.zero_add, Candidates.preference_of_lt (by omega)]
      simp [hc, List.getElem_append_left hi]
    exact (hbefore _ hmem).elim husable.1 husable.2
  have hsearch := Search.of_first hpassed (hname ▸ hfree)
  rwa [hname] at hsearch

/-- Where no name that is built is usable, a search ends with the first fallback that is free. -/
theorem search_fallback {k : Nat} (hbuilt : ∀ other ∈ c.built, other = "" ∨ other ∈ r.reserved)
    (hbefore : ∀ i < k, numbered c.fallback i ∈ r.reserved)
    (hfree : numbered c.fallback k ∉ r.reserved) :
    Search r.Usable c.preference 0 (c.built.length + k + 1) (numbered c.fallback k) := by
  have hname : c.preference (0 + (c.built.length + k)) = numbered c.fallback k := by
    rw [Nat.zero_add, c.preference_fallback]
  have hne : numbered c.fallback k ≠ "" := by
    obtain ⟨rest, -, heq⟩ := numbered_fallback c k
    rw [heq]
    exact underscore_ne_empty _ _
  have hpassed : ∀ i < c.built.length + k, ¬r.Usable (c.preference (0 + i)) := by
    intro i hi husable
    rw [Nat.zero_add] at husable
    by_cases hlt : i < c.built.length
    · rw [Candidates.preference_of_lt hlt] at husable
      exact (hbuilt _ (List.getElem_mem hlt)).elim husable.1 husable.2
    · obtain ⟨j, rfl⟩ := Nat.exists_eq_add_of_le (Nat.le_of_not_lt hlt)
      rw [c.preference_fallback] at husable
      exact husable.2 (hbefore j (by omega))
  have hsearch := Search.of_first hpassed (hname ▸ ⟨hne, hfree⟩)
  rwa [hname] at hsearch

/-- The free name is found by a search of all names in the order of preference. -/
theorem freeName_search (r : Registry) (c : Candidates) :
    ∃ tries ≤ c.path.length + 2 + r.reserved.toFinset.card + 1,
      Search r.Usable c.preference 0 tries (r.freeName c) := by
  have hlength := c.length_built_le
  rcases r.candidate_cases c with ⟨before, name, after, hc, hbefore, hfree⟩ | hnone
  · rw [freeName_of_candidate hc hbefore hfree]
    rw [c.ordered_eq_built] at hc
    have hl : c.built.length = before.length + (after.length + 1) := by
      rw [hc, List.length_append, List.length_cons]
    exact ⟨before.length + 1, by omega, search_built hc hbefore hfree⟩
  · rw [freeName_of_no_candidate hnone]
    rw [c.ordered_eq_built] at hnone
    obtain ⟨k, -, heq, hbefore, hfree⟩ := firstFree_spec r.reserved (@numbered_injective c.fallback)
    have hk : k ≤ r.reserved.toFinset.card :=
      le_card_of_taken (fun _ _ => numbered_injective) hbefore
    rw [heq]
    exact ⟨c.built.length + k + 1, by omega, search_fallback hnone hbefore hfree⟩

/-- A shape without a name gets the first usable one of the names for its type in the order of
preference. That name is found after no more attempts than there are keys and taken names, and
three. It is taken from then on, and nothing else is. -/
theorem assign_first_preference (r : Registry) (signature : Signature) (c : Candidates)
    (unseen : r.names.lookup signature = none) :
    let assigned := r.assign signature c
    (∃ tries ≤ c.path.length + 2 + r.reserved.toFinset.card + 1,
      Search r.Usable c.preference 0 tries assigned.name) ∧
    assigned.fresh = true ∧
    assigned.registry.reserved = assigned.name :: r.reserved ∧
    assigned.registry.names = (signature, assigned.name) :: r.names := by
  rw [assign_of_none unseen]
  exact ⟨freeName_search r c, rfl, rfl, rfl⟩

/-- A field three keys below the resource. -/
def deepField : Candidates where
  fieldName := "Foo"
  kind := "TestCase"
  path := ["TestCase", "status", "bar"]
  allowBare := true

/-- A registry in which another shape has the field's own name, and all other names for its type up
to the first fallback are taken, too. -/
def crowded : Registry where
  names := [(.ofLiterals [], "Foo")]
  reserved := deepField.fallback :: deepField.built

theorem crowded_first_preference :
    let assigned := crowded.assign (.ofProperties []) deepField
    crowded.names.lookup (.ofProperties []) = none ∧
    assigned.name = deepField.fallback ++ "2" ∧
    deepField.built = ["Foo", "TestCaseFoo", "BarFoo", "StatusBarFoo", "TestCaseStatusBarFoo"] ∧
    (∃ tries ≤ deepField.path.length + 2 + crowded.reserved.toFinset.card + 1,
      Search crowded.Usable deepField.preference 0 tries assigned.name) ∧
    assigned.registry.reserved = assigned.name :: crowded.reserved := by
  have hunseen : crowded.names.lookup (.ofProperties []) = none := by decide +kernel
  obtain ⟨hsearch, -, hreserved, -⟩ := assign_first_preference crowded _ deepField hunseen
  exact ⟨hunseen, by decide +kernel, by decide +kernel, hsearch, hreserved⟩

end Registry

end ResourceTypes.Naming
