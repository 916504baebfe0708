import Mathlib.Data.List.Chain
import Mathlib.Data.List.DropRight
import Mathlib.Data.List.Induction
import ResourceTypes.Proofs.Code.Constants
import ResourceTypes.Proofs.Code.FieldNames

/-! # Words in lower case

A text in snake case is made of small letters and digits, and an underscore stands only between two
of them. Such a text is a sequence of words with single underscores between them. It has no capitals
to break before and no runs to join, so it is in snake case already and is left as it is.
-/

namespace ResourceTypes.Code

open Naming

/-- Small letters and digits, and underscores that stand alone between them. -/
structure SnakeForm (cs : List Char) : Prop where
  chars : ∀ c ∈ cs, isSnakeChar c = true
  apart : cs.IsChain fun c d => c = '_' → d ≠ '_'
  head : cs.head? ≠ some '_'
  last : cs.getLast? ≠ some '_'

/-! ## Characters -/

theorem isSnakeChar_cases {c : Char} (h : isSnakeChar c = true) :
    c.isUpper = false ∧ c.toLower = c ∧ (c.isAlphanum = true ∨ c = '_') := by
  have hall : ∀ n < 128, isSnakeChar (Char.ofNat n) = true → (Char.ofNat n).isUpper = false ∧
      (Char.ofNat n).toLower = Char.ofNat n ∧
        ((Char.ofNat n).isAlphanum = true ∨ Char.ofNat n = '_') := by
    decide
  exact ascii_cases (P := fun c => isSnakeChar c = true →
    c.isUpper = false ∧ c.toLower = c ∧ (c.isAlphanum = true ∨ c = '_')) hall
    (toNat_lt_of_isSnakeChar h) h

theorem toLower_eq_underscore_iff {c : Char} : c.toLower = '_' ↔ c = '_' := by
  by_cases h : c.toNat < 128
  · have hall : ∀ n < 128, (Char.ofNat n).toLower = '_' ↔ Char.ofNat n = '_' := by decide
    exact ascii_cases (P := fun c => c.toLower = '_' ↔ c = '_') hall h
  · rw [(caseless_of_not_ascii h).1]

/-! ## What the rewriting leads to -/

theorem apart_joinOthers (inside : Bool) (cs : List Char) :
    (joinOthers inside cs).IsChain (fun c d => c = '_' → d ≠ '_') ∧
      (inside = true → (joinOthers inside cs).head? ≠ some '_') := by
  fun_induction joinOthers inside cs with
  | case1 => exact ⟨.nil, by simp⟩
  | case2 inside c rest h ih =>
      have hc : c ≠ '_' := by
        rintro rfl
        exact absurd h (by decide)
      exact ⟨List.isChain_cons.mpr ⟨fun _ _ he => (hc he).elim, ih.1⟩, fun _ he =>
        hc (Option.some.inj he)⟩
  | case3 c rest h ih => exact ih
  | case4 inside c rest h hinside ih =>
      refine ⟨List.isChain_cons.mpr ⟨fun d hd _ he => ?_, ih.1⟩, fun hi => (hinside hi).elim⟩
      exact ih.2 rfl (he ▸ hd)

theorem trimUnderscores_eq (cs : List Char) :
    trimUnderscores cs = (cs.dropWhile (· = '_')).rdropWhile (· = '_') := rfl

theorem trimUnderscores_isInfix (cs : List Char) : trimUnderscores cs <:+: cs :=
  (List.rdropWhile_prefix _ _).isInfix.trans (List.dropWhile_suffix _).isInfix

theorem head?_trimUnderscores (cs : List Char) : (trimUnderscores cs).head? ≠ some '_' := by
  intro h
  obtain ⟨rest, hrest⟩ := List.head?_eq_some_iff.mp h
  obtain ⟨more, hmore⟩ := List.rdropWhile_prefix (· = '_') (cs.dropWhile (· = '_'))
  have hhead := List.head?_dropWhile_not (· = '_') cs
  rw [← hmore, ← trimUnderscores_eq, hrest] at hhead
  simp at hhead

theorem getLast?_trimUnderscores (cs : List Char) : (trimUnderscores cs).getLast? ≠ some '_' := by
  intro h
  have hne : trimUnderscores cs ≠ [] := fun he => by simp [he] at h
  have hlast := List.rdropWhile_last_not (· = '_') (cs.dropWhile (· = '_')) hne
  rw [List.getLast?_eq_some_getLast hne] at h
  exact hlast (decide_eq_true (Option.some.inj h))

theorem snakeForm_snakeChars (cs : List Char) : SnakeForm (snakeChars cs) where
  chars := by
    have h := isSnakeChar_snakeCase (String.ofList cs)
    rwa [snakeCase, String.toList_ofList, String.toList_ofList] at h
  apart := by
    rw [snakeChars, List.isChain_map]
    have hjoined := (apart_joinOthers false (breakWords (breakAcronyms false cs))).1
    have htrimmed := List.IsChain.infix hjoined (trimUnderscores_isInfix _)
    refine htrimmed.imp fun c d h => ?_
    rwa [ne_eq, toLower_eq_underscore_iff, toLower_eq_underscore_iff]
  head := by
    rw [snakeChars, List.head?_map]
    intro h
    obtain ⟨c, hc, he⟩ := Option.map_eq_some_iff.mp h
    exact head?_trimUnderscores _ (toLower_eq_underscore_iff.mp he ▸ hc)
  last := by
    rw [snakeChars, List.getLast?_map]
    intro h
    obtain ⟨c, hc, he⟩ := Option.map_eq_some_iff.mp h
    exact getLast?_trimUnderscores _ (toLower_eq_underscore_iff.mp he ▸ hc)

/-! ## What is left alone -/

section

variable {cs : List Char}

theorem breakAcronyms_of_small (h : ∀ c ∈ cs, c.isUpper = false) (capital : Bool) :
    breakAcronyms capital cs = cs := by
  fun_induction breakAcronyms capital cs with
  | case1 => rfl
  | case2 => rfl
  | case3 capital c d rest others hbreak ih =>
      rw [h c List.mem_cons_self, Bool.and_false, Bool.false_and] at hbreak
      cases hbreak
  | case4 capital c d rest others hbreak ih =>
      exact congrArg (c :: ·) (ih fun e he => h e (List.mem_cons_of_mem c he))

theorem breakWords_of_small (h : ∀ c ∈ cs, c.isUpper = false) : breakWords cs = cs := by
  fun_induction breakWords cs with
  | case1 => rfl
  | case2 => rfl
  | case3 c d rest others hbreak ih =>
      rw [h d (List.mem_cons_of_mem c List.mem_cons_self), Bool.and_false] at hbreak
      cases hbreak
  | case4 c d rest others hbreak ih =>
      exact congrArg (c :: ·) (ih fun e he => h e (List.mem_cons_of_mem c he))

theorem joinOthers_of_apart (inside : Bool) (hchars : ∀ c ∈ cs, c.isAlphanum = true ∨ c = '_')
    (hapart : cs.IsChain fun c d => c = '_' → d ≠ '_')
    (hhead : inside = true → cs.head? ≠ some '_') : joinOthers inside cs = cs := by
  fun_induction joinOthers inside cs with
  | case1 => rfl
  | case2 inside c rest h ih =>
      rw [ih (fun d hd => hchars d (List.mem_cons_of_mem c hd)) hapart.tail (by simp)]
  | case3 c rest h ih =>
      have hc := (hchars c List.mem_cons_self).resolve_left h
      exact (hhead rfl (congrArg some hc)).elim
  | case4 inside c rest h hinside ih =>
      have hc := (hchars c List.mem_cons_self).resolve_left h
      have hrest : true = true → rest.head? ≠ some '_' := fun _ he =>
        (List.isChain_cons.mp hapart).1 '_' he hc rfl
      rw [ih (fun d hd => hchars d (List.mem_cons_of_mem c hd)) hapart.tail hrest, hc]

theorem trimUnderscores_of_ends (hhead : cs.head? ≠ some '_') (hlast : cs.getLast? ≠ some '_') :
    trimUnderscores cs = cs := by
  have hfront : cs.dropWhile (· = '_') = cs := by
    refine List.dropWhile_eq_self_iff.mpr fun hl he => hhead ?_
    rw [List.head?_eq_getElem?, List.getElem?_eq_getElem hl, of_decide_eq_true he]
  rw [trimUnderscores_eq, hfront]
  refine List.rdropWhile_eq_self_iff.mpr fun hne he => hlast ?_
  rw [List.getLast?_eq_some_getLast hne, of_decide_eq_true he]

theorem SnakeForm.snakeChars_eq (h : SnakeForm cs) : snakeChars cs = cs := by
  have hsmall : ∀ c ∈ cs, c.isUpper = false := fun c hc => (isSnakeChar_cases (h.chars c hc)).1
  have hkept : ∀ c ∈ cs, c.isAlphanum = true ∨ c = '_' := fun c hc =>
    (isSnakeChar_cases (h.chars c hc)).2.2
  have hlower : cs.map Char.toLower = cs := by
    refine (List.map_congr_left fun c hc => ?_).trans (List.map_id cs)
    exact (isSnakeChar_cases (h.chars c hc)).2.1
  rw [snakeChars, breakAcronyms_of_small hsmall, breakWords_of_small hsmall,
    joinOthers_of_apart false hkept h.apart (by simp), trimUnderscores_of_ends h.head h.last,
    hlower]

end

/-! ## Words -/

def IsWord (word : List Char) : Prop :=
  word ≠ [] ∧ ∀ c ∈ word, (c.isLower || c.isDigit) = true

section

variable {c d : Char} {rest : List Char}

theorem SnakeForm.first (h : SnakeForm (c :: rest)) : (c.isLower || c.isDigit) = true := by
  have hchar := h.chars c List.mem_cons_self
  exact (Bool.or_eq_true_iff.mp hchar).resolve_right fun he =>
    h.head (congrArg some (of_decide_eq_true he))

theorem SnakeForm.tail (h : SnakeForm (c :: d :: rest)) (hd : d ≠ '_') : SnakeForm (d :: rest) where
  chars := fun e he => h.chars e (List.mem_cons_of_mem c he)
  apart := h.apart.tail
  head := fun he => hd (Option.some.inj he)
  last := List.getLast?_cons_cons ▸ h.last

/-- Something stands behind an underscore. -/
theorem SnakeForm.behind (h : SnakeForm (c :: '_' :: rest)) : rest ≠ [] ∧ SnakeForm rest := by
  have hlast := h.last
  rw [List.getLast?_cons_cons] at hlast
  have hne : rest ≠ [] := by
    rintro rfl
    exact hlast rfl
  obtain ⟨d, more, rfl⟩ := List.exists_cons_of_ne_nil hne
  refine ⟨hne, fun e he => h.chars e ?_, h.apart.tail.tail, fun he => ?_, ?_⟩
  · exact List.mem_cons_of_mem c (List.mem_cons_of_mem _ he)
  · exact (List.isChain_cons.mp h.apart.tail).1 '_' he rfl rfl
  · rwa [List.getLast?_cons_cons] at hlast

theorem intercalate_cons_first (word : List Char) (words : List (List Char)) :
    ['_'].intercalate ((c :: word) :: words) = c :: ['_'].intercalate (word :: words) := by
  cases words with
  | nil => rw [List.intercalate_singleton, List.intercalate_singleton]
  | cons other words =>
      rw [List.intercalate_cons_cons, List.intercalate_cons_cons]
      rfl

theorem SnakeForm.exists_words {cs : List Char} (h : SnakeForm cs) :
    ∃ words : List (List Char), (∀ word ∈ words, IsWord word) ∧ cs = ['_'].intercalate words := by
  induction cs using List.twoStepInduction with
  | nil => exact ⟨[], List.forall_mem_nil _, rfl⟩
  | singleton c =>
      refine ⟨[[c]], List.forall_mem_singleton.mpr ⟨List.cons_ne_nil c [], ?_⟩, ?_⟩
      · exact List.forall_mem_singleton.mpr h.first
      · rw [List.intercalate_singleton]
  | cons_cons c d rest ihBehind ihTail =>
      by_cases hd : d = '_'
      · -- the first character is a word of its own
        subst hd
        obtain ⟨hne, hrest⟩ := h.behind
        obtain ⟨words, hwords, heq⟩ := ihBehind hrest
        have hsome : words ≠ [] := by
          rintro rfl
          exact hne heq
        refine ⟨[c] :: words, List.forall_mem_cons.mpr ⟨⟨List.cons_ne_nil c [], ?_⟩, hwords⟩, ?_⟩
        · exact List.forall_mem_singleton.mpr h.first
        · rw [List.intercalate_cons_of_ne_nil hsome, ← heq]
          rfl
      · -- the first character stands in front of the first word of the rest
        obtain ⟨words, hwords, heq⟩ := ihTail d (h.tail hd)
        cases words with
        | nil => cases heq
        | cons word words =>
            obtain ⟨hword, hwords⟩ := List.forall_mem_cons.mp hwords
            have hfirst : IsWord (c :: word) :=
              ⟨List.cons_ne_nil c word, List.forall_mem_cons.mpr ⟨h.first, hword.2⟩⟩
            refine ⟨(c :: word) :: words, List.forall_mem_cons.mpr ⟨hfirst, hwords⟩, ?_⟩
            rw [heq, intercalate_cons_first]

end

/-! ## Snake case -/

theorem filter_snakeCase (s : String) : (snakeCase s).toList.filter (· ≠ '_') =
    (s.toList.filter Char.isAlphanum).map Char.toLower := by
  rw [snakeCase, String.toList_ofList, ← filter_snakeChars]
  refine List.filter_congr fun c hc => ?_
  rcases (isSnakeChar_cases ((snakeForm_snakeChars _).chars c hc)).2.2 with h | rfl
  · have hne : c ≠ '_' := by
      rintro rfl
      exact absurd h (by decide)
    rw [h, decide_eq_true hne]
  · decide

theorem snakeCase_eq_empty_iff {s : String} :
    snakeCase s = "" ↔ ∀ c ∈ s.toList, c.isAlphanum = false := by
  have hfilter := filter_snakeCase s
  have hnone : (∀ c ∈ s.toList, c.isAlphanum = false) ↔
      (snakeCase s).toList.filter (· ≠ '_') = [] := by
    rw [hfilter, List.map_eq_nil_iff, List.filter_eq_nil_iff]
    simp only [Bool.not_eq_true]
  rw [hnone]
  constructor
  · intro h
    rw [h]
    rfl
  · intro h
    have hform := snakeForm_snakeChars s.toList
    rw [snakeCase, String.toList_ofList] at h
    cases hs : snakeChars s.toList with
    | nil => rw [snakeCase, hs]
    | cons c rest =>
        -- what is left are underscores, and none of them can be the first
        have hc := List.filter_eq_nil_iff.mp h c (hs ▸ List.mem_cons_self)
        rw [decide_eq_true_eq, not_not] at hc
        exact (hform.head (by rw [hs, hc]; rfl)).elim

/-- What is left of a text is a sequence of words. -/
theorem exists_words_snakeCase (s : String) : ∃ words : List String,
    (∀ word ∈ words, word ≠ "" ∧ ∀ c ∈ word.toList, (c.isLower || c.isDigit) = true) ∧
      snakeCase s = "_".intercalate words := by
  obtain ⟨words, hwords, heq⟩ := (snakeForm_snakeChars s.toList).exists_words
  refine ⟨words.map String.ofList, List.forall_mem_map.mpr fun word hw => ?_, ?_⟩
  · obtain ⟨hne, hchars⟩ := hwords word hw
    rw [String.toList_ofList]
    refine ⟨fun hempty => hne ?_, hchars⟩
    rw [← String.toList_ofList (l := word), hempty]
    rfl
  · have hlists : (words.map String.ofList).map String.toList = words := by
      rw [List.map_map]
      exact (List.map_congr_left fun word _ => String.toList_ofList).trans (List.map_id words)
    apply String.toList_inj.mp
    rw [snakeCase, String.toList_ofList, String.toList_intercalate, hlists]
    exact heq

/-- Words in lower case are left as they are. -/
theorem snakeCase_snakeCase (s : String) : snakeCase (snakeCase s) = snakeCase s := by
  rw [snakeCase, snakeCase, String.toList_ofList, (snakeForm_snakeChars s.toList).snakeChars_eq]

/-- Snake case is a normal form. A text becomes words of small letters and digits with single
underscores between them, and nothing is changed a second time. Its ASCII letters and digits are
kept in their order and in lower case, and only underscores are added. Nothing is left of a text
without any of them, and of no other one. -/
theorem snakeCase_normal_form (s : String) :
    (∃ words : List String,
      (∀ word ∈ words, word ≠ "" ∧ ∀ c ∈ word.toList, (c.isLower || c.isDigit) = true) ∧
        snakeCase s = "_".intercalate words) ∧
    snakeCase (snakeCase s) = snakeCase s ∧
    (snakeCase s).toList.filter (· ≠ '_') = (s.toList.filter Char.isAlphanum).map Char.toLower ∧
    (snakeCase s = "" ↔ ∀ c ∈ s.toList, c.isAlphanum = false) :=
  ⟨exists_words_snakeCase s, snakeCase_snakeCase s, filter_snakeCase s, snakeCase_eq_empty_iff⟩

/-- Boundaries of words are capitals and whatever is no letter or digit. -/
example : ["lastTransitionTime", "DNSNames", "api-server_url", "__x509Cert é"].map snakeCase =
    ["last_transition_time", "dns_names", "api_server_url", "x509_cert"] := by
  decide +kernel

end ResourceTypes.Code
