import ResourceTypes.Proofs.Code.FieldNames
import ResourceTypes.Proofs.Lowering.Constants
import ResourceTypes.Proofs.Naming.Search

/-! # Numbers tell names apart

Constants of an enumeration and fields of a structure get their names one after the other. Where a
name is taken, numbers from two on are put behind it until it is free. The attempts for a name are
distinct, those for a field that loses its mark with the first number included. So each search ends,
after one attempt more than there are taken names at the latest, and it takes the one name that it
finds.
-/

namespace ResourceTypes.Code

open Naming

/-! ## Names in turn -/

/-- Names that items get one after the other. For each of them a search through its attempts finds
a name that is not taken, after one attempt more than there are taken names at the latest. That name
is taken from then on, and nothing else is. -/
inductive Given {α : Type} (attempts : α → Nat → String) :
    List String → List α → List String → Prop
  | nil (taken : List String) : Given attempts taken [] []
  | cons {taken names : List String} {item : α} {items : List α} {tries : Nat} {name : String}
      (bound : tries ≤ taken.toFinset.card + 1)
      (search : Search (· ∉ taken) (attempts item) 0 tries name)
      (later : Given attempts (name :: taken) items names) :
      Given attempts taken (item :: items) (name :: names)

theorem Given.firstFree {α : Type} {attempts : α → Nat → String} {taken names : List String}
    {item : α} {items : List α} (hinj : Function.Injective (attempts item))
    (later : Given attempts (Naming.firstFree taken (attempts item) :: taken) items names) :
    Given attempts taken (item :: items) (Naming.firstFree taken (attempts item) :: names) := by
  obtain ⟨tries, hbound, hsearch⟩ := firstFree_search taken hinj
  exact .cons hbound hsearch later

theorem given_claimAll (taken keys : List String) :
    Given (fun key => numberedIdent (fieldIdent key)) taken keys (claimAll taken keys) := by
  induction keys generalizing taken with
  | nil => exact .nil taken
  | cons key rest ih =>
      rw [claimAll, claim, attempt_eq]
      exact .firstFree (numberedIdent_injective _) (ih _)

theorem given_enumConstantsFrom (enumName : String) (texts taken : List String)
    (literals : List Json) :
    Given (fun v => numbered (constantBase enumName v)) taken
      ((enumConstantsFrom enumName texts taken literals).map (·.value))
      ((enumConstantsFrom enumName texts taken literals).map (·.name)) := by
  induction literals generalizing texts taken with
  | nil => exact .nil taken
  | cons literal rest ih =>
      rw [enumConstantsFrom]
      by_cases hskip : (literal.isNull || decide (literal.text ∈ texts)) = true
      · rw [if_pos hskip]
        exact ih texts taken
      · rw [if_neg hskip]
        exact .firstFree (fun _ _ => numbered_injective) (ih _ _)

/-- Numbers tell names apart, whatever is taken. The attempts for a name are distinct, and a search
among them ends with one that is not taken, after one attempt more than there are taken names at the
latest. Of the attempts for an identifier, only the first may have a mark. The names of constants
and fields come from such searches, each of which takes the name that it finds and nothing else. -/
theorem numbered_searches_end (taken : List String) :
    (∀ name, Function.Injective (numbered name) ∧ ∃ tries ≤ taken.toFinset.card + 1,
      Search (· ∉ taken) (numbered name) 0 tries (firstFree taken (numbered name))) ∧
    (∀ ident, Function.Injective (numberedIdent ident) ∧ ∃ tries ≤ taken.toFinset.card + 1,
      Search (· ∉ taken) (numberedIdent ident) 0 tries (firstFree taken (numberedIdent ident))) ∧
    (∀ ident n, ¬rawMark.toList <+: (numberedIdent ident (n + 1)).toList) ∧
    (∀ enumName texts literals, Given (fun v => numbered (constantBase enumName v)) taken
      ((enumConstantsFrom enumName texts taken literals).map (·.value))
      ((enumConstantsFrom enumName texts taken literals).map (·.name))) ∧
    ∀ keys, Given (fun key => numberedIdent (fieldIdent key)) taken keys (claimAll taken keys) := by
  refine ⟨fun name => ?_, fun ident => ?_, not_mark_numberedIdent, ?_, given_claimAll taken⟩
  · have hinj : Function.Injective (numbered name) := fun _ _ => numbered_injective
    exact ⟨hinj, firstFree_search taken hinj⟩
  · have hinj := numberedIdent_injective ident
    exact ⟨hinj, firstFree_search taken hinj⟩
  · exact fun enumName texts literals => given_enumConstantsFrom enumName texts taken literals

end ResourceTypes.Code
