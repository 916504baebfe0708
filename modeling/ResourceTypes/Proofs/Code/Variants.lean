import ResourceTypes.Proofs.Code.Lines
import ResourceTypes.Proofs.Lowering.Constants
import ResourceTypes.Proofs.Text.Quoted

/-! # The variants of an enumeration of strings

The lines of an enumeration of strings are read back: each constant has one variant, which stands
for its value, and the first variant is the default. The identifier of a variant is the name of its
constant, in most cases without the name of the enumeration. A short name that is taken gives way to
the full one, but the full one may be taken as well, by the short name of a constant before it. Two
variants share an identifier in no other case.
-/

namespace ResourceTypes.Code

/-! ## Reading -/

structure Variant where
  isDefault : Bool
  /-- The text that stands for the variant in documents. -/
  rename : String
  identifier : String

def defaultLine : String := line 1 "#[default]"

def readRename (l : String) : Option String :=
  ("    #[serde(rename = ".toList.isPrefixOf? l.toList).bind fun rest =>
  (Text.readQuoted rest).bind fun value =>
    if value.2 = ")]".toList then some (String.ofList value.1) else none

def readIdentifier (l : String) : Option String :=
  ("    ".toList.isPrefixOf? l.toList).bind fun rest =>
    if rest.getLast? = some ',' then some (String.ofList rest.dropLast) else none

/-- The variants in some lines. `isDefault` says that the mark of the default stands before them. -/
def readVariants (isDefault : Bool) : Lines → Option (List Variant)
  | [] => if isDefault then none else some []
  | l :: rest =>
    if l = defaultLine then readVariants true rest
    else match rest with
      | [] => none
      | name :: rest => do
        return ⟨isDefault, ← readRename l, ← readIdentifier name⟩ :: (← readVariants false rest)

def readEnum (name : String) (lines : Lines) : Option (List Variant) :=
  readVariants false (((lines.dropWhile (· ≠ (Declaration.enum name).line)).drop 1).takeWhile
    (· ≠ closeItem))

/-! ## What is written is read -/

def renameLine (value : String) : String :=
  line 1 ("#[serde(rename = " ++ Text.quoted value ++ ")]")

theorem readRename_renameLine (value : String) : readRename (renameLine value) = some value := by
  have hchars : (renameLine value).toList =
      "    #[serde(rename = ".toList ++ (Text.quotedChars value.toList ++ ")]".toList) := by
    simp [renameLine, line, Text.quoted]
  rw [readRename, hchars, isPrefixOf?_append, Option.bind_some, Text.readQuoted_quotedChars,
    Option.bind_some, if_pos rfl, String.ofList_toList]

theorem readIdentifier_line (name : String) :
    readIdentifier (line 1 (name ++ ",")) = some name := by
  have hchars : (line 1 (name ++ ",")).toList = "    ".toList ++ (name.toList ++ [',']) := by
    simp [line]
  rw [readIdentifier, hchars, isPrefixOf?_append, Option.bind_some, if_pos List.getLast?_concat,
    List.dropLast_concat, String.ofList_toList]

theorem renameLine_ne_defaultLine (value : String) : renameLine value ≠ defaultLine := by
  intro h
  have hread := readRename_renameLine value
  rw [h] at hread
  have hnone : readRename defaultLine = none := by decide
  rw [hnone] at hread
  cases hread

theorem readVariants_defaultLine (isDefault : Bool) (rest : Lines) :
    readVariants isDefault (defaultLine :: rest) = readVariants true rest := by
  cases rest with
  | nil => simp [readVariants]
  | cons l rest => rw [readVariants, if_pos rfl]

def Variant.of (isDefault : Bool) (pair : String × EnumConstant) : Variant :=
  ⟨isDefault, pair.2.value.str?.getD "", pair.1⟩

theorem readVariants_variantLines (isDefault : Bool) (pair : String × EnumConstant) (rest : Lines) :
    readVariants isDefault (variantLines pair.1 pair.2.value ++ rest) =
      (readVariants false rest).map (Variant.of isDefault pair :: ·) := by
  have hlines : variantLines pair.1 pair.2.value ++ rest =
      renameLine (pair.2.value.str?.getD "") :: line 1 (pair.1 ++ ",") :: rest := rfl
  rw [hlines, readVariants, if_neg (renameLine_ne_defaultLine _), readRename_renameLine,
    readIdentifier_line]
  cases readVariants false rest <;> rfl

theorem readVariants_body (pairs : List (String × EnumConstant)) :
    readVariants false (pairs.flatMap fun pair => variantLines pair.1 pair.2.value) =
      some (pairs.map (Variant.of false)) := by
  induction pairs with
  | nil => rfl
  | cons pair pairs ih =>
      rw [List.flatMap_cons, readVariants_variantLines, ih, Option.map_some, List.map_cons]

/-- The variants of an enumeration behind its head. -/
theorem readEnum_of_body {name : String} {before body : Lines} (hbefore : ∀ l ∈ before, Quiet l)
    (hbody : ∀ l ∈ body, l ≠ closeItem) (after : Lines) :
    readEnum name (before ++ (Declaration.enum name).line :: (body ++ closeItem :: after)) =
      readVariants false body :=
  congrArg (readVariants false) (itemBody_append hbefore hbody after)

/-- The variants of an enumeration of strings: one for each constant, of which the first one is the
default. -/
theorem readEnum_enumLines {e : EnumType} (h : EnumType.isStringEnum e = true)
    {first : String × EnumConstant} {rest : List (String × EnumConstant)}
    (hpairs : (variants e.name [] e.constants).zip e.constants = first :: rest) :
    readEnum e.name (enumLines e) =
      some (Variant.of true first :: rest.map (Variant.of false)) := by
  have hquiet : ∀ l ∈ doc 0 e.description ++ [enumDerives], Quiet l :=
    List.forall_mem_append.mpr ⟨quiet_doc 0 e.description,
      List.forall_mem_singleton.mpr quiet_enumDerives⟩
  let body := (first :: rest).flatMap fun pair => variantLines pair.1 pair.2.value
  have hbody : ∀ l ∈ defaultLine :: body, l ≠ closeItem := by
    refine List.forall_mem_cons.mpr ⟨line_ne_closeItem 0 _, fun l hl => ?_⟩
    obtain ⟨pair, -, hl⟩ := List.mem_flatMap.mp hl
    simp only [variantLines, List.mem_cons, List.not_mem_nil, or_false] at hl
    rcases hl with rfl | rfl
    · exact line_ne_closeItem 0 _
    · exact line_ne_closeItem 0 _
  have hlines : enumLines e = doc 0 e.description ++ [enumDerives] ++
      (Declaration.enum e.name).line :: (defaultLine :: body ++ closeItem :: [blank]) := by
    have hsome : body.isEmpty = false := rfl
    rw [enumLines, if_pos h, stringEnumLines, hpairs]
    simp only [body] at hsome
    simp only [hsome, List.append_assoc]
    rfl
  rw [hlines, readEnum_of_body hquiet hbody, readVariants_defaultLine]
  simp only [body]
  rw [List.flatMap_cons, readVariants_variantLines, readVariants_body, Option.map_some]

/-! ## Identifiers -/

/-- The name of a variant is that of its constant, with or without the name of the enumeration. -/
theorem variantName_cases (enumName constant : String) :
    variantName enumName constant = constant ∨
      constant = enumName ++ variantName enumName constant := by
  unfold variantName
  split
  next rest hrest =>
    simp only
    split
    · right
      apply String.toList_inj.mp
      rw [String.toList_append, String.toList_ofList]
      exact (List.isPrefixOf?_eq_some_iff_append_eq.mp hrest).symm
    · exact .inl rfl
  next => exact .inl rfl

theorem length_variants (enumName : String) (taken : List String) (cs : List EnumConstant) :
    (variants enumName taken cs).length = cs.length := by
  induction cs generalizing taken with
  | nil => rfl
  | cons c cs ih => rw [variants, List.length_cons, List.length_cons, ih]

/-- A variant has the short name of its constant or the full one. -/
theorem mem_zip_variants {enumName : String} {taken : List String} {cs : List EnumConstant}
    {p : String × EnumConstant} (h : p ∈ (variants enumName taken cs).zip cs) :
    p.1 = variantName enumName p.2.name ∨ p.1 = p.2.name := by
  induction cs generalizing taken with
  | nil => cases h
  | cons c cs ih =>
      rw [variants, List.zip_cons_cons] at h
      rcases List.mem_cons.mp h with rfl | h
      · split
        · exact .inr rfl
        · exact .inl rfl
      · exact ih h

/-- An identifier that is taken is the full name of its constant. -/
theorem full_of_taken {enumName : String} {taken : List String} {cs : List EnumConstant} :
    ((variants enumName taken cs).zip cs).Pairwise
        (fun p q => p.1 = q.1 → q.1 = q.2.name) ∧
      ∀ q ∈ (variants enumName taken cs).zip cs, q.1 ∈ taken → q.1 = q.2.name := by
  induction cs generalizing taken with
  | nil => exact ⟨.nil, by simp [variants]⟩
  | cons c cs ih =>
      rw [variants, List.zip_cons_cons]
      simp only [List.pairwise_cons, List.forall_mem_cons]
      obtain ⟨hpairs, hrest⟩ := @ih
        ((if variantName enumName c.name ∈ taken then c.name else variantName enumName c.name)
          :: taken)
      refine ⟨⟨fun q hq he => hrest q hq (he ▸ List.mem_cons_self), hpairs⟩, fun htaken => ?_,
        fun q hq htaken => hrest q hq (List.mem_cons_of_mem _ htaken)⟩
      split at htaken
      next h => rw [if_pos h]
      next h => exact (h htaken).elim

/-- Short names that differ are left as they are. -/
theorem variants_of_nodup {enumName : String} {taken : List String} {cs : List EnumConstant}
    (h : (taken ++ cs.map fun c => variantName enumName c.name).Nodup) :
    variants enumName taken cs = cs.map fun c => variantName enumName c.name := by
  induction cs generalizing taken with
  | nil => rfl
  | cons c cs ih =>
      rw [List.map_cons, List.nodup_middle] at h
      have hfree : variantName enumName c.name ∉ taken := fun hm =>
        (List.nodup_cons.mp h).1 (List.mem_append_left _ hm)
      rw [variants, if_neg hfree, List.map_cons, ih h]

/-- Two variants share an identifier only if it is the full name of the later one and the short name
of the earlier one. -/
theorem variants_clash {enumName : String} {cs : List EnumConstant}
    (hnames : (cs.map (·.name)).Nodup) :
    ((variants enumName [] cs).zip cs).Pairwise fun p q =>
      p.1 = q.1 → q.1 = q.2.name ∧ p.2.name = enumName ++ q.2.name := by
  have hdistinct : ((variants enumName [] cs).zip cs).Pairwise
      fun p q => p.2.name ≠ q.2.name := by
    have hsecond := List.map_snd_zip (length_variants enumName [] cs).ge
    rwa [← hsecond, List.map_map, List.Nodup, List.pairwise_map] at hnames
  refine List.Pairwise.imp_of_mem (fun {p q} hp _ hpair hsame => ?_)
    (full_of_taken.1.and hdistinct)
  have hfull : q.1 = q.2.name := hpair.1 hsame
  have hshort : p.1 ≠ p.2.name := fun he => hpair.2 (he.symm.trans (hsame.trans hfull))
  have hname : p.1 = variantName enumName p.2.name :=
    (mem_zip_variants hp).resolve_right hshort
  have hlong := (variantName_cases enumName p.2.name).resolve_left (hname ▸ hshort)
  exact ⟨hfull, by rw [← hfull, ← hsame, hname]; exact hlong⟩

/-- Variants differ where no short name is the name of a constant that has no short one. -/
theorem variants_nodup {enumName : String} {cs : List EnumConstant}
    (hnames : (cs.map (·.name)).Nodup)
    (h : ∀ c ∈ cs, ∀ d ∈ cs, variantName enumName c.name = c.name →
      variantName enumName d.name = c.name → d = c) :
    (variants enumName [] cs).Nodup := by
  have hcs : cs.Nodup := hnames.of_map
  have hshort : (cs.map fun c => variantName enumName c.name).Nodup := by
    refine hcs.map_on fun c hc d hd hsame => ?_
    rcases variantName_cases enumName c.name with hfull | hlong
    · exact (h c hc d hd hfull (hsame.symm.trans hfull)).symm
    rcases variantName_cases enumName d.name with hfull | hlong'
    · exact h d hd c hc hfull (hsame.trans hfull)
    · exact List.inj_on_of_nodup_map hnames hc hd (by rw [hlong, hlong', hsame])
  rw [variants_of_nodup (by rwa [List.nil_append])]
  exact hshort

/-! ## Enumerations of strings -/

/-- The constants of an enumeration of strings have one variant each, in order, under their values,
and the first of them is the default. Two variants share an identifier only if it is the name of the
later constant and what stands behind the name of the enumeration in the name of the earlier one. If
no constant that is named in full has a name of this kind, all identifiers differ. -/
theorem string_enum_variants {e : EnumType} {literals : List Json}
    (hconstants : e.constants = enumConstants e.name literals)
    (hstrings : ∀ c ∈ e.constants, c.value.isStr = true) (hne : e.constants ≠ []) :
    ∃ found, readEnum e.name (enumLines e) = some found ∧
      found.map (fun v => Json.str v.rename) = e.constants.map (·.value) ∧
      found.countP (·.isDefault) = 1 ∧
      (((found.map (·.identifier)).zip e.constants).Pairwise fun p q =>
        p.1 = q.1 → q.1 = q.2.name ∧ p.2.name = e.name ++ q.2.name) ∧
      ((∀ c ∈ e.constants, ∀ d ∈ e.constants, variantName e.name c.name = c.name →
        variantName e.name d.name = c.name → d = c) → (found.map (·.identifier)).Nodup) := by
  have hnames : (e.constants.map (·.name)).Nodup := by
    rw [hconstants]
    exact enumConstants_names_nodup e.name literals
  have hkind : EnumType.isStringEnum e = true := by
    simp only [EnumType.isStringEnum, Bool.and_eq_true, Bool.not_eq_true',
      List.isEmpty_eq_false_iff, List.all_eq_true]
    exact ⟨hne, hstrings⟩
  have hlength := length_variants e.name [] e.constants
  have hfirst := List.map_fst_zip hlength.le
  have hsecond := List.map_snd_zip hlength.ge
  have hpairs : (variants e.name [] e.constants).zip e.constants ≠ [] := by
    rintro hnil
    rw [hnil] at hsecond
    exact hne hsecond.symm
  obtain ⟨pair, rest, hcons⟩ := List.exists_cons_of_ne_nil hpairs
  rw [hcons] at hfirst hsecond
  have hidentifiers : (Variant.of true pair :: rest.map (Variant.of false)).map (·.identifier) =
      variants e.name [] e.constants := by
    rw [← hfirst, List.map_cons, List.map_cons, List.map_map]
    rfl
  have hvalue : ∀ p ∈ pair :: rest, ∀ isDefault,
      Json.str (Variant.of isDefault p).rename = p.2.value := by
    intro p hp isDefault
    have hc : p.2 ∈ e.constants := hsecond ▸ List.mem_map_of_mem hp
    have hstr := hstrings _ hc
    cases hv : p.2.value with
    | str s => simp [Variant.of, hv, Json.str?]
    | _ => simp [hv, Json.isStr] at hstr
  refine ⟨_, readEnum_enumLines hkind hcons, ?_, ?_, ?_, fun h => ?_⟩
  · rw [← hsecond, List.map_map, List.map_cons, List.map_cons, List.map_map]
    congr 1
    · exact hvalue pair List.mem_cons_self true
    · exact List.map_congr_left fun p hp => hvalue p (List.mem_cons_of_mem _ hp) false
  · have hothers : (rest.map (Variant.of false)).countP (·.isDefault) = 0 := by
      rw [List.countP_map, List.countP_eq_zero]
      exact fun p _ => Bool.false_ne_true
    rw [List.countP_cons_of_pos rfl, hothers]
  · rw [hidentifiers]
    exact variants_clash hnames
  · rw [hidentifiers]
    exact variants_nodup hnames h

/-- Literals of which one leaves no identifier behind the name of the enumeration. -/
def modes : List Json :=
  [.str "3", .str "Mode3", .str "fast", .null, .str "fast"]

/-- The short name that is taken gives way, and the literal that comes again is left out. -/
theorem modes_variants :
    (∀ c ∈ enumConstants "Mode" modes, c.value.isStr = true) ∧ enumConstants "Mode" modes ≠ [] ∧
      ∃ found, readEnum "Mode" (enumLines ⟨"Mode", .str, "", enumConstants "Mode" modes⟩) =
          some found ∧
        found.map (fun v => Json.str v.rename) = (enumConstants "Mode" modes).map (·.value) ∧
        found.countP (·.isDefault) = 1 := by
  have hstrings : ∀ c ∈ enumConstants "Mode" modes, c.value.isStr = true := by decide +kernel
  have hne : enumConstants "Mode" modes ≠ [] := List.ne_nil_of_length_pos (by decide +kernel)
  obtain ⟨found, hread, hvalues, hdefault, -⟩ :=
    string_enum_variants (e := ⟨"Mode", .str, "", enumConstants "Mode" modes⟩) rfl hstrings hne
  exact ⟨hstrings, hne, found, hread, hvalues, hdefault⟩

/-- In the opposite order the full name is taken, and it is all that is left. -/
theorem mode3_variants_repeat :
    (∀ c ∈ enumConstants "Mode" [.str "Mode3", .str "3"], c.value.isStr = true) ∧
      ∃ found, readEnum "Mode" (enumLines
          ⟨"Mode", .str, "", enumConstants "Mode" [.str "Mode3", .str "3"]⟩) = some found ∧
        found.map (·.identifier) = ["Mode3", "Mode3"] ∧ ¬(found.map (·.identifier)).Nodup := by
  have hread : (readEnum "Mode" (enumLines
      ⟨"Mode", .str, "", enumConstants "Mode" [.str "Mode3", .str "3"]⟩)).map
        (·.map (·.identifier)) = some ["Mode3", "Mode3"] := by
    decide +kernel
  obtain ⟨found, hfound, hidentifiers⟩ := Option.map_eq_some_iff.mp hread
  refine ⟨by decide +kernel, found, hfound, hidentifiers, ?_⟩
  rw [hidentifiers]
  decide

end ResourceTypes.Code
