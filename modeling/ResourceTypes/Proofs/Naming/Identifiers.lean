import ResourceTypes.Code.Ident
import ResourceTypes.Proofs.Naming.Registry

/-! # How names are spelled

The joined words of an ASCII key have letters and digits only, and they never begin with a small
letter. Such texts may stand behind each other without spelling a keyword that no part spells. They
may begin with a digit, though, and a key may spell a keyword by itself.
-/

namespace ResourceTypes.Naming

/-! ## Identifiers -/

def isAscii (s : String) : Bool :=
  s.toList.all fun c => c.toNat < 128

def isWordChar (c : Char) : Bool :=
  c.isAlphanum || c = '_'

def beginsWithDigit (s : String) : Bool :=
  s.toList.head?.any Char.isDigit

/-- Whether a text may name a type: letters, digits and underscores, no digit in front and not the
keyword for the type at hand. -/
def isTypeName (s : String) : Bool :=
  match s.toList with
  | [] => false
  | c :: rest => (c.isAlpha || c = '_') && rest.all isWordChar && s ≠ "Self"

/-- Whether a kind is an identifier in letters and digits and no keyword. -/
def isKindName (s : String) : Bool :=
  match s.toList with
  | [] => false
  | c :: rest => c.isAlpha && rest.all Char.isAlphanum &&
      s ∉ Code.keywords ++ Code.nonRawKeywords

def Spelled (s : String) : Prop :=
  ∀ c ∈ s.toList, isWordChar c = true

theorem isAlpha_iff {c : Char} : c.isAlpha = true ↔
    (65 ≤ c.toNat ∧ c.toNat ≤ 90) ∨ (97 ≤ c.toNat ∧ c.toNat ≤ 122) := by
  change (decide (c.val ≥ 'A'.val ∧ c.val ≤ 'Z'.val) ||
    (decide (c.val ≥ 'a'.val) && decide (c.val ≤ 'z'.val))) = true ↔ _
  simp [UInt32.le_iff_toNat_le]

theorem isDigit_of_isAlpha {c : Char} (h : c.isAlpha = true) : c.isDigit = false := by
  have hdigit : ¬(48 ≤ c.toNat ∧ c.toNat ≤ 57) := by
    have hbounds := isAlpha_iff.mp h
    omega
  exact Bool.eq_false_iff.mpr (mt Char.isDigit_iff_toNat.mp hdigit)

theorem isTypeName_iff {s : String} :
    isTypeName s = true ↔ s ≠ "" ∧ Spelled s ∧ beginsWithDigit s = false ∧ s ≠ "Self" := by
  have hempty : s ≠ "" ↔ s.toList ≠ [] := not_congr String.toList_eq_nil_iff.symm
  have hhead : ∀ c : Char, (c.isAlpha || c = '_') = true ↔
      isWordChar c = true ∧ c.isDigit = false := by
    intro c
    constructor
    · intro h
      rcases Bool.or_eq_true_iff.mp h with ha | hu
      · exact ⟨by rw [isWordChar, Char.isAlphanum, ha, Bool.true_or, Bool.true_or],
          isDigit_of_isAlpha ha⟩
      · rw [of_decide_eq_true hu]
        decide
    · rintro ⟨hw, hd⟩
      rwa [isWordChar, Char.isAlphanum, hd, Bool.or_false] at hw
  unfold isTypeName Spelled beginsWithDigit
  rw [hempty]
  cases s.toList with
  | nil => simp
  | cons c rest =>
      simp only [Bool.and_eq_true, hhead, List.all_eq_true, decide_eq_true_eq, ne_eq,
        List.forall_mem_cons, List.head?_cons, Option.any_some, reduceCtorEq, not_false_eq_true,
        true_and]
      constructor
      · rintro ⟨⟨⟨hword, hdigit⟩, hrest⟩, hself⟩
        exact ⟨⟨hword, hrest⟩, hdigit, hself⟩
      · rintro ⟨⟨hword, hrest⟩, hdigit, hself⟩
        exact ⟨⟨⟨hword, hdigit⟩, hrest⟩, hself⟩

/-! ## Joined words -/

structure Capitalized (s : String) : Prop where
  chars : ∀ c ∈ s.toList, c.isAlphanum = true
  head : ∀ c ∈ s.toList.head?, c.isLower = false

/-- A fact about each ASCII character. -/
theorem ascii_cases {P : Char → Prop} (hall : ∀ n < 128, P (Char.ofNat n)) {c : Char}
    (h : c.toNat < 128) : P c := by
  have hc := hall c.toNat h
  rwa [Char.ofNat_toNat] at hc

theorem isAlphanum_toUpper {c : Char} (h : c.toNat < 128) :
    c.toUpper.isAlphanum = c.isAlphanum := by
  have hall : ∀ n < 128, (Char.ofNat n).toUpper.isAlphanum = (Char.ofNat n).isAlphanum := by decide
  exact ascii_cases (P := fun c => c.toUpper.isAlphanum = c.isAlphanum) hall h

theorem isAlpha_toUpper {c : Char} (h : c.toNat < 128) : c.toUpper.isAlpha = c.isAlpha := by
  have hall : ∀ n < 128, (Char.ofNat n).toUpper.isAlpha = (Char.ofNat n).isAlpha := by decide
  exact ascii_cases (P := fun c => c.toUpper.isAlpha = c.isAlpha) hall h

theorem isLower_toUpper {c : Char} (h : c.toNat < 128) : c.toUpper.isLower = false := by
  have hall : ∀ n < 128, (Char.ofNat n).toUpper.isLower = false := by decide
  exact ascii_cases (P := fun c => c.toUpper.isLower = false) hall h

theorem camelFrom_isAlphanum {cs : List Char} (h : ∀ c ∈ cs, c.toNat < 128) (start : Bool) :
    ∀ c ∈ camelFrom start cs, c.isAlphanum = true := by
  induction cs generalizing start with
  | nil => simp [camelFrom]
  | cons a cs ih =>
      have ha : a.toNat < 128 := h a List.mem_cons_self
      have hrest := ih fun c hc => h c (List.mem_cons_of_mem _ hc)
      have halpha : Text.isAlphanumeric a = a.isAlphanum := if_pos ha
      have hupper : Text.upper a = [a.toUpper] := if_pos ha
      intro c hc
      rw [camelFrom, halpha, hupper] at hc
      split at hc
      next hword =>
        rcases List.mem_append.mp hc with hc | hc
        · split at hc <;> rw [List.mem_singleton.mp hc]
          · rwa [isAlphanum_toUpper ha]
          · exact hword
        · exact hrest false c hc
      next => exact hrest true c hc

theorem camelFrom_head {cs : List Char} (h : ∀ c ∈ cs, c.toNat < 128) :
    ∀ c ∈ (camelFrom true cs).head?, c.isLower = false := by
  induction cs with
  | nil => simp [camelFrom]
  | cons a cs ih =>
      have ha : a.toNat < 128 := h a List.mem_cons_self
      have hupper : Text.upper a = [a.toUpper] := if_pos ha
      intro c hc
      rw [camelFrom, hupper] at hc
      split at hc
      · simp only [if_true, List.cons_append, List.head?_cons, Option.mem_some_iff] at hc
        rw [← hc]
        exact isLower_toUpper ha
      · exact ih (fun c hc => h c (List.mem_cons_of_mem _ hc)) c hc

theorem isAscii_iff {s : String} : isAscii s = true ↔ ∀ c ∈ s.toList, c.toNat < 128 := by
  simp [isAscii]

theorem capitalized_camelFrom {cs : List Char} (h : ∀ c ∈ cs, c.toNat < 128) :
    Capitalized (String.ofList (camelFrom true cs)) where
  chars := by
    rw [String.toList_ofList]
    exact camelFrom_isAlphanum h true
  head := by
    rw [String.toList_ofList]
    exact camelFrom_head h

theorem capitalized_camelCase {key : String} (h : isAscii key = true) :
    Capitalized (camelCase key) :=
  capitalized_camelFrom (isAscii_iff.mp h)

theorem capitalized_refName {pointer : String} (h : isAscii pointer = true) :
    Capitalized (refName pointer) := by
  refine capitalized_camelFrom fun c hc => isAscii_iff.mp h c ?_
  have hword := (List.takeWhile_subset _) (List.mem_reverse.mp hc)
  exact List.mem_reverse.mp hword

/-! ## Texts behind each other -/

variable {s t : String}

theorem Spelled.append (hs : Spelled s) (ht : Spelled t) : Spelled (s ++ t) := by
  intro c hc
  rw [String.toList_append] at hc
  rcases List.mem_append.mp hc with hc | hc
  · exact hs c hc
  · exact ht c hc

theorem Capitalized.spelled (h : Capitalized s) : Spelled s := by
  intro c hc
  rw [isWordChar, h.chars c hc, Bool.true_or]

theorem Capitalized.append (hs : Capitalized s) (ht : Capitalized t) : Capitalized (s ++ t) where
  chars := by
    intro c hc
    rw [String.toList_append] at hc
    rcases List.mem_append.mp hc with hc | hc
    · exact hs.chars c hc
    · exact ht.chars c hc
  head := by
    intro c hc
    rw [String.toList_append, List.head?_append] at hc
    rcases Option.or_eq_some_iff.mp hc with hc | ⟨-, hc⟩
    · exact hs.head c hc
    · exact ht.head c hc

theorem beginsWithDigit_append (hs : s ≠ "") (t : String) :
    beginsWithDigit (s ++ t) = beginsWithDigit s := by
  have hne : s.toList ≠ [] := mt String.toList_eq_nil_iff.mp hs
  rw [beginsWithDigit, beginsWithDigit, String.toList_append]
  cases h : s.toList with
  | nil => exact (hne h).elim
  | cons c rest => rfl

/-- The small letters of the keyword cannot come from a capitalized text. -/
theorem append_ne_self (hs : s ≠ "") (hself : s ≠ "Self") (ht : Capitalized t) :
    s ++ t ≠ "Self" := by
  intro h
  have hl : s.toList ++ t.toList = ['S', 'e', 'l', 'f'] := by
    rw [← String.toList_append, h]
    decide
  cases hs' : s.toList with
  | nil => exact hs (String.toList_eq_nil_iff.mp hs')
  | cons a rest =>
      rw [hs', List.cons_append, List.cons.injEq] at hl
      cases ht' : t.toList with
      | nil =>
          rw [ht', List.append_nil] at hl
          exact hself (String.toList_inj.mp (by rw [hs', hl.1, hl.2]; decide))
      | cons b more =>
          have hb : b ∈ ['e', 'l', 'f'] := by
            rw [← hl.2, ht']
            exact List.mem_append_right _ List.mem_cons_self
          have hsmall : ∀ c ∈ ['e', 'l', 'f'], c.isLower = true :=
            List.all_eq_true.mp (by decide)
          have hlower := ht.head b (by rw [ht']; rfl)
          rw [hsmall b hb] at hlower
          cases hlower

theorem isTypeName_append (hs : isTypeName s = true) (ht : Capitalized t) :
    isTypeName (s ++ t) = true := by
  obtain ⟨hne, hspelled, hdigit, hself⟩ := isTypeName_iff.mp hs
  refine isTypeName_iff.mpr ⟨?_, hspelled.append ht.spelled, ?_, append_ne_self hne hself ht⟩
  · exact fun h => hne (String.append_eq_empty_iff.mp h).1
  · rw [beginsWithDigit_append hne, hdigit]

/-- What names are joined of: a capitalized text that is empty or may name a type by itself. -/
structure Piece (s : String) : Prop where
  capitalized : Capitalized s
  valid : s = "" ∨ isTypeName s = true

theorem Piece.append (hs : Piece s) (ht : Piece t) : Piece (s ++ t) where
  capitalized := hs.capitalized.append ht.capitalized
  valid := by
    rcases hs.valid with rfl | hs
    · rw [String.empty_append]
      exact ht.valid
    · exact .inr (isTypeName_append hs ht.capitalized)

theorem spelled_underscore : Spelled "_" :=
  List.all_eq_true.mp (by decide)

theorem underscore_ne_empty (s t : String) : s ++ ("_" ++ t) ≠ "" := by
  intro h
  have hinner := (String.append_eq_empty_iff.mp h).2
  exact absurd (String.append_eq_empty_iff.mp hinner).1 (by decide)

/-- An underscore keeps the keyword away. -/
theorem isTypeName_underscore (hs : s = "" ∨ isTypeName s = true) (ht : Spelled t) :
    isTypeName (s ++ ("_" ++ t)) = true := by
  have hne := underscore_ne_empty s t
  have hself : s ++ ("_" ++ t) ≠ "Self" := by
    intro h
    have hmem : '_' ∈ "Self".toList := by
      rw [← h, String.toList_append, String.toList_append]
      exact List.mem_append_right _ (List.mem_append_left _ (by decide))
    exact absurd hmem (by decide)
  rcases hs with rfl | hs
  · rw [String.empty_append] at hne hself ⊢
    refine isTypeName_iff.mpr ⟨hne, spelled_underscore.append ht, ?_, hself⟩
    rw [beginsWithDigit_append (by decide)]
    decide
  · obtain ⟨hs, hspelled, hdigit, -⟩ := isTypeName_iff.mp hs
    refine isTypeName_iff.mpr ⟨hne, hspelled.append (spelled_underscore.append ht), ?_, hself⟩
    rw [beginsWithDigit_append hs, hdigit]

/-! ## Kinds -/

theorem isKindName_iff {kind : String} :
    isKindName kind = true ↔ (∃ c rest, kind.toList = c :: rest ∧ c.isAlpha = true ∧
      ∀ d ∈ rest, d.isAlphanum = true) ∧ kind ∉ Code.keywords ++ Code.nonRawKeywords := by
  unfold isKindName
  cases kind.toList with
  | nil => simp
  | cons c rest => simp [and_assoc]

theorem isTypeName_of_isKindName {kind : String} (h : isKindName kind = true) :
    isTypeName kind = true := by
  obtain ⟨⟨c, rest, hkind, hc, hrest⟩, hkeyword⟩ := isKindName_iff.mp h
  refine isTypeName_iff.mpr ⟨?_, ?_, ?_, ?_⟩
  · rintro rfl
    cases hkind
  · intro d hd
    rw [hkind] at hd
    rcases List.mem_cons.mp hd with rfl | hd
    · rw [isWordChar, Char.isAlphanum, hc, Bool.true_or, Bool.true_or]
    · rw [isWordChar, hrest d hd, Bool.true_or]
  · rw [beginsWithDigit, hkind]
    exact isDigit_of_isAlpha hc
  · rintro rfl
    exact hkeyword (by decide)

theorem toNat_lt_of_isAlphanum {c : Char} (h : c.isAlphanum = true) : c.toNat < 128 := by
  rcases Bool.or_eq_true_iff.mp h with ha | hd
  · have hbounds := isAlpha_iff.mp ha
    omega
  · have hbound : c.toNat ≤ 57 := (Char.isDigit_iff_toNat.mp hd).2
    omega

/-- The rest of a word is kept. -/
theorem camelFrom_false {cs : List Char} (h : ∀ c ∈ cs, c.isAlphanum = true) :
    camelFrom false cs = cs := by
  induction cs with
  | nil => rfl
  | cons a cs ih =>
      have ha : a.isAlphanum = true := h a List.mem_cons_self
      have halpha : Text.isAlphanumeric a = true := (if_pos (toNat_lt_of_isAlphanum ha)).trans ha
      rw [camelFrom, if_pos halpha, ih fun c hc => h c (List.mem_cons_of_mem _ hc)]
      rfl

/-- Only the first letter of a kind may change. -/
theorem camelCase_kind {kind : String} {c : Char} {rest : List Char}
    (hkind : kind.toList = c :: rest) (hc : c.isAlpha = true)
    (hrest : ∀ d ∈ rest, d.isAlphanum = true) :
    camelCase kind = String.ofList (c.toUpper :: rest) := by
  have ha : c.isAlphanum = true := by rw [Char.isAlphanum, hc, Bool.true_or]
  have hlt := toNat_lt_of_isAlphanum ha
  have halpha : Text.isAlphanumeric c = true := (if_pos hlt).trans ha
  have hupper : Text.upper c = [c.toUpper] := if_pos hlt
  rw [camelCase, hkind, camelFrom, if_pos halpha, if_pos rfl, hupper, camelFrom_false hrest]
  rfl

theorem isAscii_of_isKindName {kind : String} (h : isKindName kind = true) :
    isAscii kind = true := by
  obtain ⟨⟨c, rest, hkind, hc, hrest⟩, -⟩ := isKindName_iff.mp h
  refine isAscii_iff.mpr fun d hd => ?_
  rw [hkind] at hd
  rcases List.mem_cons.mp hd with rfl | hd
  · exact toNat_lt_of_isAlphanum (by rw [Char.isAlphanum, hc, Bool.true_or])
  · exact toNat_lt_of_isAlphanum (hrest d hd)

theorem camelCase_kind_ne_self {kind : String} (h : isKindName kind = true) :
    camelCase kind ≠ "Self" := by
  obtain ⟨⟨c, rest, hkind, hc, hrest⟩, hkeyword⟩ := isKindName_iff.mp h
  have hlt : c.toNat < 128 :=
    toNat_lt_of_isAlphanum (by rw [Char.isAlphanum, hc, Bool.true_or])
  have hall : ∀ n < 128, (Char.ofNat n).toUpper = 'S' →
      Char.ofNat n = 's' ∨ Char.ofNat n = 'S' := by
    decide
  intro hself
  have hl : c.toUpper :: rest = ['S', 'e', 'l', 'f'] := by
    rw [← String.toList_ofList (l := c.toUpper :: rest), ← camelCase_kind hkind hc hrest, hself]
    decide
  obtain ⟨hfirst, rfl⟩ := List.cons.inj hl
  have hcases := ascii_cases (P := fun c => c.toUpper = 'S' → c = 's' ∨ c = 'S') hall hlt hfirst
  rcases hcases with rfl | rfl
  · have hk : kind = "self" := String.toList_inj.mp (hkind.trans (by decide))
    exact hkeyword (hk ▸ by decide)
  · have hk : kind = "Self" := String.toList_inj.mp (hkind.trans (by decide))
    exact hkeyword (hk ▸ by decide)

theorem piece_camelCase_kind {kind : String} (h : isKindName kind = true) :
    Piece (camelCase kind) where
  capitalized := capitalized_camelCase (isAscii_of_isKindName h)
  valid := by
    obtain ⟨⟨c, rest, hkind, hc, hrest⟩, -⟩ := isKindName_iff.mp h
    have hcapitalized := capitalized_camelCase (isAscii_of_isKindName h)
    have hself := camelCase_kind_ne_self h
    have hcamel := camelCase_kind hkind hc hrest
    refine .inr (isTypeName_iff.mpr ⟨?_, hcapitalized.spelled, ?_, hself⟩)
    · rw [hcamel]
      exact fun hempty => by simp at hempty
    · have hlt : c.toNat < 128 :=
        toNat_lt_of_isAlphanum (by rw [Char.isAlphanum, hc, Bool.true_or])
      rw [hcamel, beginsWithDigit, String.toList_ofList]
      exact isDigit_of_isAlpha ((isAlpha_toUpper hlt).trans hc)

/-! ## Free names -/

/-- What holds of the parts of the prefixed names, and goes over from two texts to the joined one,
holds of these names. -/
theorem of_mem_prefixed {P : String → Prop} (happend : ∀ {s t : String}, P s → P t → P (s ++ t))
    {fieldName joined : String} (hfield : P fieldName) (hjoined : P joined) {keys : List String}
    (hkeys : ∀ key ∈ keys, P (camelCase key)) :
    ∀ name ∈ Candidates.prefixed fieldName joined keys, P name := by
  induction keys generalizing joined with
  | nil => simp [Candidates.prefixed]
  | cons key keys ih =>
      intro name hname
      have hlonger : P (camelCase key ++ joined) := happend (hkeys key List.mem_cons_self) hjoined
      rcases List.mem_cons.mp hname with rfl | hname
      · exact happend hlonger hfield
      · exact ih hlonger (fun other ho => hkeys other (List.mem_cons_of_mem _ ho)) name hname

theorem mem_ordered {c : Candidates} {name : String} (h : name ∈ c.ordered) :
    name = c.fieldName ∨ name = c.kind ++ c.fieldName ∨
      name ∈ Candidates.prefixed c.fieldName "" c.path.reverse := by
  rcases List.mem_append.mp h with h | h
  · split at h
    · exact .inl (List.mem_singleton.mp h)
    · exact (List.not_mem_nil h).elim
  · exact .inr (List.mem_cons.mp h)

theorem spelled_hex (s : Digest) : ∀ c ∈ s.hex, isWordChar c = true := by
  have hall : ∀ n < 16, isWordChar (Nat.digitChar n) = true := by decide
  intro c hc
  obtain ⟨word, -, hc⟩ := List.mem_flatMap.mp hc
  obtain ⟨i, -, rfl⟩ := List.mem_map.mp hc
  exact hall _ (Nat.mod_lt _ (by decide))

/-- A numbered fallback is the field name, an underscore, and letters and digits. -/
theorem numbered_fallback (c : Candidates) (n : Nat) :
    ∃ rest, Spelled rest ∧ numbered c.fallback n = c.fieldName ++ ("_" ++ rest) := by
  have hhex : ∀ text : List Char,
      Spelled (String.ofList ((Digest.ofChars text).hex.take 32)) := by
    intro text d hd
    rw [String.toList_ofList] at hd
    exact spelled_hex _ d (List.take_subset _ _ hd)
  cases n with
  | zero =>
      refine ⟨_, hhex (".".intercalate c.path ++ "." ++ c.fieldName).toList, ?_⟩
      rw [numbered, Candidates.fallback, String.append_assoc]
  | succ n =>
      have hdigits : Spelled (String.ofList (Decimal.natChars (n + 2))) := by
        intro d hd
        rw [String.toList_ofList] at hd
        rw [isWordChar, Char.isAlphanum, Decimal.isDigit_of_mem_natChars hd, Bool.or_true,
          Bool.true_or]
      refine ⟨_, (hhex (".".intercalate c.path ++ "." ++ c.fieldName).toList).append hdigits, ?_⟩
      simp only [numbered, Candidates.fallback, String.append_assoc]

/-- A free name is a candidate that is not empty, or a numbered fallback. -/
theorem freeName_cases (r : Registry) (c : Candidates) :
    (r.freeName c ∈ c.ordered ∧ r.freeName c ≠ "") ∨
      ∃ n, r.freeName c = numbered c.fallback n := by
  unfold Registry.freeName
  split
  next name h =>
    have hn := List.find?_some h
    simp only [Bool.and_eq_true, decide_eq_true_eq] at hn
    exact .inl ⟨List.mem_of_find?_eq_some h, hn.1⟩
  next =>
    obtain ⟨n, -, heq, -, -⟩ := firstFree_spec r.reserved (@numbered_injective c.fallback)
    exact .inr ⟨n, heq⟩

theorem freeName_ne_empty (r : Registry) (c : Candidates) : r.freeName c ≠ "" := by
  rcases freeName_cases r c with ⟨-, hne⟩ | ⟨n, hn⟩
  · exact hne
  · obtain ⟨rest, -, heq⟩ := numbered_fallback c n
    rw [hn, heq]
    exact underscore_ne_empty _ _

/-- What holds of the kind, the field name and the joined keys, and of all spelled texts, and goes
over from two texts to the joined one, holds of a free name. -/
theorem of_freeName {P : String → Prop} (happend : ∀ {s t : String}, P s → P t → P (s ++ t))
    (hspelled : ∀ {s : String}, Spelled s → P s) {c : Candidates} (hkind : P c.kind)
    (hfield : P c.fieldName) (hpath : ∀ key ∈ c.path, P (camelCase key)) (r : Registry) :
    P (r.freeName c) := by
  have hempty : Spelled "" := List.all_eq_true.mp (by decide)
  rcases freeName_cases r c with ⟨hmem, -⟩ | ⟨n, hn⟩
  · rcases mem_ordered hmem with h | h | h
    · rw [h]
      exact hfield
    · rw [h]
      exact happend hkind hfield
    · exact of_mem_prefixed happend hfield (hspelled hempty)
        (fun key hk => hpath key (List.mem_reverse.mp hk)) _ h
  · obtain ⟨rest, hrest, heq⟩ := numbered_fallback c n
    rw [hn, heq]
    exact happend hfield (hspelled (spelled_underscore.append hrest))

/-- A free name may name a type if the kind may, and every key that is not empty once its words are
joined. -/
theorem freeName_isTypeName {c : Candidates} (hkind : isTypeName c.kind = true)
    (hfield : Piece c.fieldName) (hpath : ∀ key ∈ c.path, Piece (camelCase key)) (r : Registry) :
    isTypeName (r.freeName c) = true := by
  have hempty : Piece "" := ⟨⟨by simp, by simp⟩, .inl rfl⟩
  rcases freeName_cases r c with ⟨hmem, hne⟩ | ⟨n, hn⟩
  · rcases mem_ordered hmem with h | h | h
    · rw [h] at hne ⊢
      exact hfield.valid.resolve_left hne
    · rw [h]
      exact isTypeName_append hkind hfield.capitalized
    · have hpiece := of_mem_prefixed Piece.append hfield hempty
        (fun key hk => hpath key (List.mem_reverse.mp hk)) _ h
      exact hpiece.valid.resolve_left hne
  · obtain ⟨rest, hrest, heq⟩ := numbered_fallback c n
    rw [hn, heq]
    exact isTypeName_underscore hfield.valid hrest

end ResourceTypes.Naming
