import ResourceTypes.Proofs.Naming.Identifiers

/-! # The identifiers of fields

A key leaves small letters, digits and underscores, and what is made of it may name a field: a
reserved word is marked as raw or gets an underscore, and a digit in front gets one too. A number
behind an identifier keeps it from being a reserved word. Marked identifiers are the only ones that
spell a reserved word, so identifiers that differ do so without their marks as well.
-/

namespace ResourceTypes.Code

open Naming

/-! ## Identifiers -/

/-- The words that the language keeps for itself, in the order of the alphabet. -/
def reservedWords : List String :=
  ["Self", "abstract", "as", "async", "await", "become", "box", "break", "const", "continue",
    "crate", "do", "dyn", "else", "enum", "extern", "false", "final", "fn", "for", "gen", "if",
    "impl", "in", "let", "loop", "macro", "match", "mod", "move", "mut", "override", "priv", "pub",
    "ref", "return", "self", "static", "struct", "super", "trait", "true", "try", "type", "typeof",
    "unsafe", "unsized", "use", "virtual", "where", "while", "yield"]

/-- The reserved words that stand for parts of a path. No mark makes identifiers of them. -/
def pathWords : List String :=
  ["Self", "crate", "self", "super"]

def isSnakeChar (c : Char) : Bool :=
  c.isLower || c.isDigit || c = '_'

/-- Whether a text is a word of small letters, digits and underscores with no digit in front. -/
def isSnakeWord (s : String) : Bool :=
  s ≠ "" && s.toList.all isSnakeChar && !beginsWithDigit s

inductive FieldName : String → Prop
  | plain {word : String} (spelled : isSnakeWord word = true) (free : word ∉ reservedWords) :
      FieldName word
  | raw {word : String} (reserved : word ∈ reservedWords) (markable : word ∉ pathWords) :
      FieldName (rawMark ++ word)

def plainName (ident : String) : String :=
  match rawMark.toList.isPrefixOf? ident.toList with
  | some word => String.ofList word
  | none => ident

theorem isSnakeWord_iff {s : String} : isSnakeWord s = true ↔
    s ≠ "" ∧ (∀ c ∈ s.toList, isSnakeChar c = true) ∧ beginsWithDigit s = false := by
  simp [isSnakeWord, and_assoc]

/-- Texts that follow a word leave it a word. -/
theorem isSnakeWord_append {s t : String} (hs : isSnakeWord s = true)
    (ht : ∀ c ∈ t.toList, isSnakeChar c = true) : isSnakeWord (s ++ t) = true := by
  obtain ⟨hne, hchars, hdigit⟩ := isSnakeWord_iff.mp hs
  apply isSnakeWord_iff.mpr
  refine ⟨fun h => hne (String.append_eq_empty_iff.mp h).1, ?_, ?_⟩
  · rw [String.toList_append]
    exact List.forall_mem_append.mpr ⟨hchars, ht⟩
  · rw [beginsWithDigit_append hne, hdigit]

theorem mark_not_mem {s : String} (h : ∀ c ∈ s.toList, isSnakeChar c = true) : '#' ∉ s.toList :=
  fun hm => absurd (h '#' hm) (by decide)

theorem stripRaw_of_not_mark {ident : String} (h : ¬rawMark.toList <+: ident.toList) :
    stripRaw ident = ident := by
  unfold stripRaw stripRawChars
  split
  next rest hs => exact (h ⟨rest, by rw [hs]; rfl⟩).elim
  next => exact String.ofList_toList

theorem stripRaw_of_not_mem {s : String} (h : '#' ∉ s.toList) : stripRaw s = s :=
  stripRaw_of_not_mark fun hmark => h (hmark.subset (by decide))

theorem plainName_of_not_mem {s : String} (h : '#' ∉ s.toList) : plainName s = s := by
  unfold plainName
  split
  next word hword =>
    rw [← List.isPrefixOf?_eq_some_iff_append_eq.mp hword] at h
    simp [rawMark] at h
  next => rfl

theorem plainName_raw (word : String) : plainName (rawMark ++ word) = word := by
  have hprefix : rawMark.toList.isPrefixOf? (rawMark ++ word).toList = some word.toList := by
    apply List.isPrefixOf?_eq_some_iff_append_eq.mpr
    rw [String.toList_append]
  simp only [plainName, hprefix, String.ofList_toList]

theorem isSnakeWord_of_reserved {word : String} (h : word ∈ reservedWords)
    (hpath : word ∉ pathWords) : isSnakeWord word = true := by
  have hall : ∀ word ∈ reservedWords, word ∉ pathWords → isSnakeWord word = true := by decide
  exact hall word h hpath

namespace FieldName

variable {ident other : String}

/-- Without its mark, an identifier is a word. -/
theorem isSnakeWord_plainName (h : FieldName ident) : isSnakeWord (plainName ident) = true := by
  cases h with
  | plain spelled free =>
      rwa [plainName_of_not_mem (mark_not_mem (isSnakeWord_iff.mp spelled).2.1)]
  | raw reserved markable =>
      rw [plainName_raw]
      exact isSnakeWord_of_reserved reserved markable

theorem mem_toList (h : FieldName ident) : ∀ c ∈ ident.toList, isSnakeChar c = true ∨ c = '#' := by
  have hword := (isSnakeWord_iff.mp h.isSnakeWord_plainName).2.1
  cases h with
  | plain spelled free => exact fun c hc => .inl ((isSnakeWord_iff.mp spelled).2.1 c hc)
  | raw reserved markable =>
      have hmark : ("r#".toList.all fun c => isSnakeChar c || c = '#') = true := by decide
      rw [plainName_raw] at hword
      rw [String.toList_append]
      refine List.forall_mem_append.mpr ⟨fun c hc => ?_, fun c hc => .inl (hword c hc)⟩
      simpa using List.all_eq_true.mp hmark c hc

theorem stripRaw_eq (h : FieldName ident) : stripRaw ident = plainName ident := by
  have hplain := mark_not_mem (isSnakeWord_iff.mp h.isSnakeWord_plainName).2.1
  cases h with
  | plain spelled free =>
      have hnot := mark_not_mem (isSnakeWord_iff.mp spelled).2.1
      rw [stripRaw_of_not_mem hnot, plainName_of_not_mem hnot]
  | @raw word reserved markable =>
      rw [plainName_raw] at hplain ⊢
      have hstrip : stripRaw (rawMark ++ word) = stripRaw word := by
        rw [stripRaw, String.toList_append]
        rfl
      rw [hstrip, stripRaw_of_not_mem hplain]

end FieldName

/-! ## Identifiers of keys -/

theorem mem_joinOthers {inside : Bool} {cs : List Char} {c : Char} (h : c ∈ joinOthers inside cs) :
    c.isAlphanum = true ∨ c = '_' := by
  fun_induction joinOthers inside cs with
  | case1 => simp at h
  | case2 inside d rest hd ih =>
      rcases List.mem_cons.mp h with rfl | h
      · exact .inl hd
      · exact ih h
  | case3 d rest hd ih => exact ih h
  | case4 inside d rest hd hinside ih =>
      rcases List.mem_cons.mp h with rfl | h
      · exact .inr rfl
      · exact ih h

theorem mem_of_mem_trimUnderscores {cs : List Char} {c : Char} (h : c ∈ trimUnderscores cs) :
    c ∈ cs := by
  have hfront := (List.dropWhile_sublist _).subset (List.mem_reverse.mp h)
  exact (List.dropWhile_sublist _).subset (List.mem_reverse.mp hfront)

theorem toNat_lt_of_isSnakeChar {c : Char} (h : isSnakeChar c = true) : c.toNat < 128 := by
  rcases Bool.or_eq_true_iff.mp h with h | h
  · have hletter : c.isLower = true → c.isAlpha = true := fun h =>
      Bool.or_eq_true_iff.mpr (.inr h)
    exact toNat_lt_of_isAlphanum
      (Bool.or_eq_true_iff.mpr ((Bool.or_eq_true_iff.mp h).imp_left hletter))
  · rw [of_decide_eq_true h]
    decide

theorem isSnakeChar_toLower {c : Char} (h : c.isAlphanum = true ∨ c = '_') :
    isSnakeChar c.toLower = true := by
  rcases h with h | rfl
  · have hall : ∀ n < 128, (Char.ofNat n).isAlphanum = true →
        isSnakeChar (Char.ofNat n).toLower = true := by
      decide
    exact ascii_cases (P := fun c => c.isAlphanum = true → isSnakeChar c.toLower = true) hall
      (toNat_lt_of_isAlphanum h) h
  · decide

/-- Of a key, only small letters, digits and underscores are left. -/
theorem isSnakeChar_snakeCase (key : String) :
    ∀ c ∈ (snakeCase key).toList, isSnakeChar c = true := by
  rw [snakeCase, String.toList_ofList]
  intro c hc
  obtain ⟨d, hd, rfl⟩ := List.mem_map.mp hc
  exact isSnakeChar_toLower (mem_joinOthers (mem_of_mem_trimUnderscores hd))

/-- What is made of a key may name a field. -/
theorem fieldName_fieldIdent (key : String) : FieldName (fieldIdent key) := by
  have hchars := isSnakeChar_snakeCase key
  have hdigit : (snakeCase key).toList.head?.any Char.isDigit = beginsWithDigit (snakeCase key) :=
    rfl
  unfold fieldIdent
  simp only [hdigit]
  generalize snakeCase key = snake at hchars
  split
  next => exact .plain (by decide) (by decide)
  next hne =>
  split
  next =>
    refine .plain (isSnakeWord_append (by decide) hchars) fun hm => ?_
    have hfirst : ∀ word ∈ reservedWords, '_' ∉ word.toList := by decide
    exact hfirst _ hm (by simp)
  next hfirst =>
  have hword : isSnakeWord snake = true := isSnakeWord_iff.mpr ⟨hne, hchars, by simpa using hfirst⟩
  split
  next hpath =>
    have hall : ∀ word ∈ nonRawKeywords, isSnakeWord word = true →
        isSnakeWord (word ++ "_") = true ∧ word ++ "_" ∉ reservedWords := by
      decide
    exact .plain (hall snake hpath hword).1 (hall snake hpath hword).2
  next hpath =>
  split
  next hkeyword =>
    have hall : ∀ word ∈ keywords, word ∈ reservedWords ∧ word ∉ pathWords := by decide
    exact .raw (hall snake hkeyword).1 (hall snake hkeyword).2
  next hkeyword =>
    have hall : ∀ word ∈ reservedWords, word ∈ nonRawKeywords ∨ word ∈ keywords := by decide
    exact .plain hword fun hm => (hall snake hm).elim hpath hkeyword

/-! ## Attempts -/

/-- Identifiers to try: one at first, then the same without a mark and with a number from two on. -/
def numberedIdent (ident : String) : Nat → String
  | 0 => ident
  | n + 1 => stripRaw ident ++ "_" ++ String.ofList (Decimal.natChars (n + 2))

theorem attempt_eq (key : String) : attempt key = numberedIdent (fieldIdent key) := by
  funext n
  cases n <;> rfl

theorem not_mark_stripRawChars (cs rest : List Char) :
    ¬rawMark.toList <+: stripRawChars cs ++ '_' :: rest := by
  have hmark : rawMark.toList = ['r', '#'] := by decide
  rw [hmark]
  fun_induction stripRawChars cs with
  | case1 more ih => exact ih
  | case2 cs hcs =>
      rintro ⟨behind, h⟩
      match cs with
      | [] => simp at h
      | [c] => simp at h
      | c :: d :: more =>
          simp only [List.cons_append, List.nil_append, List.cons.injEq] at h
          exact hcs more (by rw [← h.1, ← h.2.1])

/-- Only the first attempt may have a mark. -/
theorem not_mark_numberedIdent (ident : String) (n : Nat) :
    ¬rawMark.toList <+: (numberedIdent ident (n + 1)).toList := by
  have hlist : (numberedIdent ident (n + 1)).toList =
      stripRawChars ident.toList ++ '_' :: Decimal.natChars (n + 2) := by
    simp [numberedIdent, stripRaw]
  rw [hlist]
  exact not_mark_stripRawChars _ _

/-- A number makes another identifier, even where a mark is lost for it. -/
theorem numberedIdent_ne (ident : String) (n : Nat) : numberedIdent ident (n + 1) ≠ ident := by
  intro h
  have hmark := not_mark_numberedIdent ident n
  rw [h] at hmark
  rw [numberedIdent, stripRaw_of_not_mark hmark] at h
  have hl := congrArg String.length h
  simp only [String.length_append] at hl
  have hunderscore : "_".length = 1 := by decide
  omega

theorem numberedIdent_injective (ident : String) : Function.Injective (numberedIdent ident) := by
  intro m n h
  cases m with
  | zero =>
      cases n with
      | zero => rfl
      | succ n => exact (numberedIdent_ne ident n h.symm).elim
  | succ m =>
      cases n with
      | zero => exact (numberedIdent_ne ident m h).elim
      | succ n =>
          have hl := congrArg String.toList h
          simp only [numberedIdent, String.toList_append, String.toList_ofList] at hl
          have := Decimal.natChars_injective (List.append_cancel_left hl)
          omega

theorem attempt_injective {key : String} {m n : Nat} (h : attempt key m = attempt key n) :
    m = n := by
  rw [attempt_eq] at h
  exact numberedIdent_injective _ h

theorem isSnakeChar_natChars (n : Nat) : ∀ c ∈ Decimal.natChars n, isSnakeChar c = true := by
  intro c hc
  rw [isSnakeChar, Decimal.isDigit_of_mem_natChars hc, Bool.or_true, Bool.true_or]

def attemptSuffix : Nat → String
  | 0 => ""
  | n + 1 => "_" ++ String.ofList (Decimal.natChars (n + 2))

/-- Every attempt for a key may name a field. -/
theorem fieldName_attempt (key : String) (n : Nat) : FieldName (attempt key n) := by
  have hbase := fieldName_fieldIdent key
  cases n with
  | zero => exact hbase
  | succ n =>
      have hsuffix : ∀ c ∈ (attemptSuffix (n + 1)).toList, isSnakeChar c = true := by
        rw [attemptSuffix, String.toList_append]
        refine List.forall_mem_append.mpr ⟨List.all_eq_true.mp (by decide), ?_⟩
        rw [String.toList_ofList]
        exact isSnakeChar_natChars (n + 2)
      have hattempt : attempt key (n + 1) =
          plainName (fieldIdent key) ++ attemptSuffix (n + 1) := by
        rw [attempt, hbase.stripRaw_eq, String.append_assoc, attemptSuffix]
      rw [hattempt]
      refine .plain (isSnakeWord_append hbase.isSnakeWord_plainName hsuffix) fun hm => ?_
      -- an underscore keeps reserved words away
      have hunderscore : ∀ word ∈ reservedWords, '_' ∉ word.toList := by decide
      exact hunderscore _ hm (by simp [attemptSuffix])

/-! ## Claims -/

/-- A claim takes a free identifier that may name a field. -/
theorem claim_spec (taken : List String) (key : String) :
    claim taken key ∉ taken ∧ FieldName (claim taken key) := by
  obtain ⟨k, -, hclaim, -, hfree⟩ := firstFree_spec taken (@attempt_injective key)
  rw [claim, hclaim]
  exact ⟨hfree, fieldName_attempt key k⟩

/-- Claims that follow each other take distinct free identifiers, all of which may name fields. -/
theorem claimAll_spec (taken keys : List String) :
    (claimAll taken keys).Nodup ∧
      ∀ ident ∈ claimAll taken keys, ident ∉ taken ∧ FieldName ident := by
  induction keys generalizing taken with
  | nil => exact ⟨.nil, List.forall_mem_nil _⟩
  | cons key rest ih =>
      rw [claimAll]
      obtain ⟨hnodup, hrest⟩ := ih (claim taken key :: taken)
      refine ⟨List.nodup_cons.mpr ⟨fun hm => ?_, hnodup⟩,
        List.forall_mem_cons.mpr ⟨claim_spec taken key, fun ident hm => ?_⟩⟩
      · exact (hrest _ hm).1 List.mem_cons_self
      · obtain ⟨hnot, hname⟩ := hrest ident hm
        exact ⟨fun htaken => hnot (List.mem_cons_of_mem _ htaken), hname⟩

/-- A mark makes an identifier of a keyword, but not of a word of paths. -/
example : claimAll [] ["type", "Type", "self", "3d"] = ["r#type", "type_2", "self_", "_3d"] := by
  decide +kernel

end ResourceTypes.Code
