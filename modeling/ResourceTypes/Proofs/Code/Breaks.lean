import ResourceTypes.Proofs.Code.FieldNames
import ResourceTypes.Proofs.Code.Lines
import ResourceTypes.Proofs.Json.Text
import ResourceTypes.Proofs.Path
import ResourceTypes.Proofs.Text.Quoted

/-! # Line breaks in files

What is written at once is a line of the file as long as no line break is in it. Descriptions are
split where they have one, quoted texts and values spell theirs out, and the identifiers of fields
have none. Only the names of types and constants can bring one in.
-/

namespace ResourceTypes.Code

/-! ## Lines of a text -/

/-- The lines of a text, and what follows the last line break. -/
def linesOf (contents : String) : Lines :=
  (Text.splitOn '\n' contents.toList).map String.ofList

def Unbroken (s : String) : Prop :=
  '\n' ∉ s.toList

instance (s : String) : Decidable (Unbroken s) :=
  inferInstanceAs (Decidable (¬ _))

theorem linesOf_of_unbroken {l : String} (h : Unbroken l) : linesOf l = [l] := by
  rw [linesOf, Text.splitOn_of_not_mem h, List.map_singleton, String.ofList_toList]

theorem toList_textOf_cons (l : String) (lines : Lines) :
    (textOf (l :: lines)).toList = l.toList ++ '\n' :: (textOf lines).toList := by
  simp [textOf, String.toList_join]

/-- The lines of a text are those of all that is written. -/
theorem linesOf_textOf_eq (lines : Lines) :
    linesOf (textOf lines) = lines.flatMap linesOf ++ [""] := by
  induction lines with
  | nil => rfl
  | cons l lines ih =>
      rw [linesOf] at ih
      rw [linesOf, toList_textOf_cons, Text.splitOn_append, List.map_append, ih, List.flatMap_cons,
        List.append_assoc]
      rfl

/-- Lines without line breaks are the lines of their text. -/
theorem linesOf_textOf {lines : Lines} (h : ∀ l ∈ lines, Unbroken l) :
    linesOf (textOf lines) = lines ++ [""] := by
  have hlines : lines.flatMap linesOf = lines.flatMap fun l => [l] :=
    List.flatMap_congr fun l hl => linesOf_of_unbroken (h l hl)
  rw [linesOf_textOf_eq, hlines, List.flatMap_singleton']

theorem mem_linesOf_textOf {lines : Lines} {l piece : String} (hl : l ∈ lines)
    (h : piece ∈ linesOf l) : piece ∈ linesOf (textOf lines) := by
  rw [linesOf_textOf_eq]
  exact List.mem_append_left _ (List.mem_flatMap.mpr ⟨l, hl, h⟩)

/-- A line without line breaks is a line of the text, whatever the others are. -/
theorem unbroken_mem_linesOf {lines : Lines} {l : String} (hl : l ∈ lines) (h : Unbroken l) :
    l ∈ linesOf (textOf lines) := by
  refine mem_linesOf_textOf hl ?_
  rw [linesOf_of_unbroken h]
  exact List.mem_singleton_self l

/-! ## Texts without line breaks -/

variable {s t : String}

theorem unbroken_append : Unbroken (s ++ t) ↔ Unbroken s ∧ Unbroken t := by
  rw [Unbroken, String.toList_append, List.mem_append, not_or]
  rfl

theorem Unbroken.append (hs : Unbroken s) (ht : Unbroken t) : Unbroken (s ++ t) :=
  unbroken_append.mpr ⟨hs, ht⟩

theorem unbroken_line {depth : Nat} : Unbroken (line depth s) ↔ Unbroken s := by
  have hblanks : Unbroken (String.ofList (List.replicate (4 * depth) ' ')) := by
    simp [Unbroken]
  rw [line, unbroken_append, and_iff_right hblanks]

theorem unbroken_quoted (value : String) : Unbroken (Text.quoted value) := by
  rw [Unbroken, Text.quoted, String.toList_ofList]
  exact Text.not_mem_quotedChars _

theorem unbroken_value (v : Json) : Unbroken v.text := by
  rw [Unbroken, Json.text, String.toList_ofList]
  exact Json.not_mem_chars v

theorem unbroken_natChars (n : Nat) : Unbroken (String.ofList (Decimal.natChars n)) := by
  rw [Unbroken, String.toList_ofList]
  exact Decimal.not_mem_natChars n (by decide)

theorem unbroken_fieldName {ident : String} (h : FieldName ident) : Unbroken ident := fun hm =>
  absurd (h.mem_toList _ hm) (by decide)

theorem unbroken_constName (name : String) : Unbroken (constName name) := by
  intro hm
  rw [constName, String.toList_map] at hm
  obtain ⟨c, hc, hupper⟩ := List.mem_map.mp hm
  have hall : ∀ n < 128, isSnakeChar (Char.ofNat n) = true → (Char.ofNat n).toUpper ≠ '\n' := by
    decide
  have hsnake := isSnakeChar_snakeCase name c hc
  exact Naming.ascii_cases (P := fun c => isSnakeChar c = true → c.toUpper ≠ '\n') hall
    (toNat_lt_of_isSnakeChar hsnake) hsnake hupper

/-- A type has a line break in its text only where a name in it has one. -/
theorem unbroken_typeText {type : TypeRef} (h : ∀ name ∈ type.names, Unbroken name) :
    Unbroken (typeText type) := by
  induction type with
  | named name => exact h name (List.mem_singleton_self name)
  | sequence item ih =>
      have hopen : Unbroken "Vec<" := by decide
      exact (hopen.append (ih h)).append (by decide)
  | mapping value ih =>
      have hopen : Unbroken "BTreeMap<String, " := by decide
      exact (hopen.append (ih h)).append (by decide)
  | optional type ih =>
      have hopen : Unbroken "Option<" := by decide
      exact (hopen.append (ih h)).append (by decide)
  | external e => cases e <;> decide
  | _ => decide

theorem unbroken_literal {base : TypeRef} {value : Json} {literal : String}
    (h : constLiteral? base value = some literal) : Unbroken literal := by
  have hint : ∀ n, Unbroken (String.ofList (Decimal.intChars n)) := fun n => by
    rw [Unbroken, String.toList_ofList]
    exact Decimal.not_mem_intChars n (by decide) (by decide)
  have hfloat : ∀ n, Unbroken (floatText n) := by
    intro n
    cases n with
    | int n => exact (hint n).append (by decide)
    | float d =>
        rw [Unbroken, floatText, String.toList_ofList]
        exact Json.not_mem_numberChars (.float d)
  unfold constLiteral? at h
  split at h
  all_goals cases h
  · exact hint _
  · exact hint _
  · exact hfloat _
  · exact hfloat _
  · next b => cases b <;> decide
  · exact unbroken_quoted _

/-! ## Items -/

theorem unbroken_docLine {depth : Nat} {text : List Char} (h : '\n' ∉ text) :
    Unbroken (docLine depth text) := by
  unfold docLine
  split
  · exact unbroken_line.mpr (by decide)
  · have htrim : '\n' ∉ Text.trimEnd text := by
      intro hm
      rw [Text.trimEnd, List.mem_reverse] at hm
      exact h (List.mem_reverse.mp ((List.dropWhile_suffix _).mem hm))
    refine unbroken_line.mpr (Unbroken.append (by decide) ?_)
    rwa [Unbroken, String.toList_ofList]

theorem unbroken_doc (depth : Nat) (description : String) :
    ∀ l ∈ doc depth description, Unbroken l := by
  intro l hl
  unfold doc at hl
  split at hl
  · cases hl
  · obtain ⟨text, htext, rfl⟩ := List.mem_map.mp hl
    exact unbroken_docLine (Text.not_mem_of_mem_splitOn htext)

theorem unbroken_intercalate {separator : String} (hs : Unbroken separator) {parts : List String}
    (h : ∀ part ∈ parts, Unbroken part) : Unbroken (separator.intercalate parts) := by
  induction parts with
  | nil =>
      rw [String.intercalate_nil]
      decide
  | cons part rest ih =>
      obtain ⟨hpart, hrest⟩ := List.forall_mem_cons.mp h
      cases rest with
      | nil => simpa using hpart
      | cons next rest =>
          rw [String.intercalate_cons_cons]
          exact (hpart.append hs).append (ih hrest)

theorem unbroken_fieldLines {ident : String} {field : Field} (hident : FieldName ident)
    (htype : ∀ name ∈ field.type.names, Unbroken name) :
    ∀ l ∈ fieldLines ident field, Unbroken l := by
  have hattributes : ∀ part ∈ fieldAttributes ident field, Unbroken part := by
    unfold fieldAttributes
    simp only [List.forall_mem_append, List.forall_mem_cons]
    refine ⟨?_, by decide, ?_⟩
    · split
      · simp
      · exact List.forall_mem_singleton.mpr (Unbroken.append (by decide) (unbroken_quoted _))
    · split
      · exact List.forall_mem_singleton.mpr (Unbroken.append (by decide) (unbroken_quoted _))
      · simp
  unfold fieldLines
  simp only [List.forall_mem_append, List.forall_mem_cons, unbroken_line, unbroken_append]
  refine ⟨?_, ⟨⟨by decide, unbroken_intercalate (by decide) hattributes⟩, by decide⟩,
    ⟨⟨⟨⟨by decide, unbroken_fieldName hident⟩, by decide⟩, unbroken_typeText htype⟩, by decide⟩,
    by simp⟩
  split
  · exact unbroken_doc 1 _
  · simp

theorem unbroken_fieldsLines (taken : List String) {fields : List Field}
    (h : ∀ field ∈ fields, ∀ name ∈ field.type.names, Unbroken name) :
    ∀ l ∈ fieldsLines taken fields, Unbroken l := by
  intro l hl
  obtain ⟨⟨ident, field⟩, hpair, hl⟩ := List.mem_flatMap.mp hl
  obtain ⟨hident, hfield⟩ := List.of_mem_zip hpair
  exact unbroken_fieldLines ((claimAll_spec _ _).2 ident hident).2 (h field hfield) l hl

theorem unbroken_openItem {head : String} : Unbroken (openItem head) ↔ Unbroken head := by
  have hbrace : Unbroken " \x7b" := by decide
  rw [openItem, unbroken_append, and_iff_left hbrace]

theorem unbroken_fixed : ∀ l ∈ header ++ [blank, closeItem, structDerives, enumDerives,
    line 1 "#[default]", line 1 "pub metadata: ObjectMeta,", line 1 "pub metadata: ListMeta,"] ++
    apiVersionLines, Unbroken l := by
  decide +kernel

theorem unbroken_structLines {s : StructType} (hname : Unbroken s.name)
    (hfields : ∀ field ∈ s.fields, ∀ name ∈ field.type.names, Unbroken name) :
    ∀ l ∈ structLines s, Unbroken l := by
  simp only [structLines, List.forall_mem_append, List.forall_mem_cons, unbroken_openItem,
    unbroken_append]
  exact ⟨⟨⟨unbroken_doc 0 _, by decide, ⟨by decide, hname⟩, by simp⟩,
    unbroken_fieldsLines [] hfields⟩, by decide, by decide, by simp⟩

theorem unbroken_constLine {name : String} (h : Unbroken name) (value : String) :
    Unbroken (constLine name value) := by
  simp only [constLine, unbroken_line, unbroken_append]
  exact ⟨⟨⟨⟨by decide, h⟩, by decide⟩, unbroken_quoted value⟩, by decide⟩

theorem unbroken_rootLines {m : TypeModel} (hname : Unbroken m.root.name)
    (hfields : ∀ field ∈ m.root.fields, ∀ name ∈ field.type.names, Unbroken name) :
    ∀ l ∈ rootLines m, Unbroken l := by
  simp only [rootLines, List.forall_mem_append, List.forall_mem_cons, unbroken_openItem,
    unbroken_append]
  exact ⟨⟨⟨⟨⟨unbroken_doc 0 _, by decide, ⟨by decide, hname⟩, by simp⟩,
    fun l hl => unbroken_fixed l (List.mem_append_right _ hl)⟩, by decide, by simp⟩,
    unbroken_fieldsLines _ hfields⟩, by decide, by decide, ⟨by decide, hname⟩,
    unbroken_constLine (by decide) _, unbroken_constLine (by decide) _,
    unbroken_constLine (by decide) _, by decide, by decide, by simp⟩

theorem unbroken_listLines {d : Descriptor} (hkind : Unbroken d.kind)
    (hlist : Unbroken d.listKind) : ∀ l ∈ listLines d, Unbroken l := by
  simp only [listLines, List.forall_mem_append, List.forall_mem_cons, unbroken_openItem,
    unbroken_append, unbroken_line]
  exact ⟨⟨⟨unbroken_doc 0 _, by decide, ⟨by decide, hlist⟩, by simp⟩,
    fun l hl => unbroken_fixed l (List.mem_append_right _ hl)⟩, by decide,
    ⟨⟨by decide, hkind⟩, by decide⟩, by decide, by decide, by simp⟩

/-- A variant is the name of its constant or the end of it. -/
theorem unbroken_variants {enumName : String} {constants : List EnumConstant}
    (h : ∀ c ∈ constants, Unbroken c.name) (taken : List String) :
    ∀ variant ∈ variants enumName taken constants, Unbroken variant := by
  have hshort : ∀ name, Unbroken name → Unbroken (variantName enumName name) := by
    intro name hname
    unfold variantName
    split
    next rest hrest =>
      have happend := List.isPrefixOf?_eq_some_iff_append_eq.mp hrest
      have hend : Unbroken (String.ofList rest) := by
        rw [Unbroken, String.toList_ofList]
        exact fun hm => hname (happend ▸ List.mem_append_right _ hm)
      simp only
      split
      · exact hend
      · exact hname
    · exact hname
  induction constants generalizing taken with
  | nil => simp [variants]
  | cons c rest ih =>
      obtain ⟨hc, hrest⟩ := List.forall_mem_cons.mp h
      rw [variants]
      refine List.forall_mem_cons.mpr ⟨?_, ih hrest _⟩
      split
      · exact hc
      · exact hshort c.name hc

theorem unbroken_variantLines {variant : String} (h : Unbroken variant) (value : Json) :
    ∀ l ∈ variantLines variant value, Unbroken l := by
  simp only [variantLines, List.forall_mem_cons, unbroken_line, unbroken_append]
  exact ⟨⟨⟨by decide, unbroken_quoted _⟩, by decide⟩, ⟨h, by decide⟩, by simp⟩

theorem unbroken_stringEnumLines {e : EnumType} (hname : Unbroken e.name)
    (hconstants : ∀ c ∈ e.constants, Unbroken c.name) :
    ∀ l ∈ stringEnumLines e, Unbroken l := by
  have hvariants : ∀ l ∈ ((variants e.name [] e.constants).zip e.constants).flatMap fun pair =>
      variantLines pair.1 pair.2.value, Unbroken l := by
    intro l hl
    obtain ⟨⟨variant, c⟩, hpair, hl⟩ := List.mem_flatMap.mp hl
    have hvariant := unbroken_variants hconstants [] variant (List.of_mem_zip hpair).1
    exact unbroken_variantLines hvariant c.value l hl
  simp only [stringEnumLines]
  generalize ((variants e.name [] e.constants).zip e.constants).flatMap _ = body at hvariants ⊢
  simp only [List.forall_mem_append, List.forall_mem_cons, unbroken_openItem, unbroken_append]
  refine ⟨⟨⟨by decide, ⟨by decide, hname⟩, by simp⟩, ?_⟩, by decide, by decide, by simp⟩
  split
  · simp
  · exact List.forall_mem_cons.mpr ⟨by decide, hvariants⟩

theorem unbroken_constEnumLines {e : EnumType} (hname : Unbroken e.name)
    (hbase : ∀ name ∈ e.base.names, Unbroken name)
    (hconstants : ∀ c ∈ e.constants, Unbroken c.name) :
    ∀ l ∈ constEnumLines e, Unbroken l := by
  simp only [constEnumLines, List.forall_mem_append, List.forall_mem_cons, List.forall_mem_map,
    unbroken_append]
  refine ⟨⟨⟨⟨⟨⟨by decide, hname⟩, by decide⟩, unbroken_typeText hbase⟩, by decide⟩, ?_⟩, by decide,
    by simp⟩
  intro c hc
  unfold constantLine
  split
  next literal hliteral =>
    simp only [unbroken_append]
    exact ⟨⟨⟨⟨⟨⟨by decide, unbroken_constName _⟩, by decide⟩, hname⟩, by decide⟩,
      unbroken_literal hliteral⟩, by decide⟩
  next =>
    simp only [unbroken_append]
    exact ⟨⟨⟨by decide, hconstants c hc⟩, by decide⟩, unbroken_value _⟩

theorem unbroken_enumLines {e : EnumType} (hname : Unbroken e.name)
    (hbase : ∀ name ∈ e.base.names, Unbroken name)
    (hconstants : ∀ c ∈ e.constants, Unbroken c.name) : ∀ l ∈ enumLines e, Unbroken l := by
  rw [enumLines, List.forall_mem_append]
  refine ⟨unbroken_doc 0 _, ?_⟩
  split
  · exact unbroken_stringEnumLines hname hconstants
  · exact unbroken_constEnumLines hname hbase hconstants

theorem unbroken_usePath {m : TypeModel} {path : String} (h : path ∈ usePaths m) :
    Unbroken path := by
  rcases mem_usePaths.mp h with ⟨-, rfl⟩ | ⟨e, -, rfl⟩ | rfl | ⟨-, rfl⟩
  · decide
  · cases e <;> decide
  · decide
  · decide

theorem unbroken_useLine {path : String} (h : Unbroken path) : Unbroken (useLine path) := by
  rw [useLine, unbroken_append, unbroken_append]
  exact ⟨⟨by decide, h⟩, by decide⟩

theorem unbroken_importLines (m : TypeModel) : ∀ l ∈ importLines m, Unbroken l := by
  intro l hl
  rcases mem_importLines hl with rfl | ⟨path, rfl⟩
  · decide
  · have huse : useLine path ∈ (importLines m).filter isUse :=
      List.mem_filter.mpr ⟨hl, isUse_useLine path⟩
    rw [filter_isUse_importLines, List.mem_map_of_injective fun _ _ => useLine_injective] at huse
    exact unbroken_useLine (unbroken_usePath huse)

/-! ## Files -/

/-- Whether no name of a model has a line break in it. -/
structure UnbrokenNames (m : TypeModel) : Prop where
  kind : Unbroken m.descriptor.kind
  listKind : Unbroken m.descriptor.listKind
  defined : ∀ name ∈ m.definedNames, Unbroken name
  used : ∀ type ∈ m.types, ∀ name ∈ type.names, Unbroken name
  constants : ∀ e ∈ m.enums, ∀ c ∈ e.constants, Unbroken c.name

theorem UnbrokenNames.resourceLines {m : TypeModel} (h : UnbrokenNames m) :
    ∀ l ∈ resourceLines m, Unbroken l := by
  have hfields : ∀ field ∈ m.fields, ∀ name ∈ field.type.names, Unbroken name := fun field hf =>
    h.used field.type (List.mem_append_left _ (List.mem_map_of_mem hf))
  have hroot : ∀ field ∈ m.root.fields, field ∈ m.fields := fun field hf =>
    List.mem_append_left _ hf
  have hnested : ∀ s ∈ m.structs, ∀ field ∈ s.fields, field ∈ m.fields := fun s hs field hf =>
    List.mem_append_right _ (List.mem_flatMap.mpr ⟨s, hs, hf⟩)
  have hname : Unbroken m.root.name := h.defined _ (by simp [TypeModel.definedNames])
  have hstruct : ∀ s ∈ m.structs, Unbroken s.name := fun s hs =>
    h.defined _ (by simp only [TypeModel.definedNames, List.mem_append, List.mem_cons,
      List.mem_map]; exact .inl (.inr ⟨s, hs, rfl⟩))
  have henum : ∀ e ∈ m.enums, Unbroken e.name := fun e he =>
    h.defined _ (List.mem_append_right _ (List.mem_map_of_mem he))
  simp only [Code.resourceLines, List.forall_mem_append, List.forall_mem_flatMap]
  refine ⟨⟨⟨⟨⟨fun l hl => unbroken_fixed l ?_, unbroken_importLines m⟩,
    unbroken_rootLines hname fun field hf => hfields field (hroot field hf)⟩,
    unbroken_listLines h.kind h.listKind⟩, fun s hs => ?_⟩, fun e he => ?_⟩
  · exact List.mem_append_left _ (List.mem_append_left _ hl)
  · exact unbroken_structLines (hstruct s hs) fun field hf => hfields field (hnested s hs field hf)
  · exact unbroken_enumLines (henum e he)
      (h.used e.base (List.mem_append_right _ (List.mem_map_of_mem he))) (h.constants e he)

/-- Without line breaks in names, the lines of a file are those that were written. -/
theorem UnbrokenNames.linesOf_resourceLines {m : TypeModel} (h : UnbrokenNames m) :
    linesOf (textOf (Code.resourceLines m)) = Code.resourceLines m ++ [""] :=
  linesOf_textOf h.resourceLines

end ResourceTypes.Code
