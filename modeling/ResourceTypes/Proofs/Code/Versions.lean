import ResourceTypes.Proofs.Code.Lines
import ResourceTypes.Proofs.Text.Quoted

/-! # The version that a file declares

A line has the value of a text constant if it begins like the declaration of the constant and ends
behind a quoted text. The file of a resource has one such line for the version of its interface: any
other line begins or ends otherwise, whatever names and descriptions it holds.
-/

namespace ResourceTypes.Code

/-! ## Values of constants -/

/-- The value of a text constant, where a line declares one behind a lead. -/
def constantValue? (lead line : String) : Option String :=
  (lead.toList.isPrefixOf? line.toList).bind fun rest =>
    match Text.readQuoted rest with
    | some (value, [';']) => some (String.ofList value)
    | _ => none

def infoLead (name : String) : String :=
  "pub const " ++ name ++ ": &str = "

def implLead (name : String) : String :=
  line 1 ("pub const " ++ name ++ ": &'static str = ")

theorem constantValue_quoted (lead value : String) :
    constantValue? lead (lead ++ Text.quoted value ++ ";") = some value := by
  have hchars : (lead ++ Text.quoted value ++ ";").toList =
      lead.toList ++ (Text.quotedChars value.toList ++ [';']) := by
    simp [Text.quoted]
  rw [constantValue?, hchars, isPrefixOf?_append, Option.bind_some,
    Text.readQuoted_quotedChars]
  simp

/-- A line that begins otherwise declares no such constant. -/
theorem constantValue_of_begins {lead line : String} (h : begins lead line = false) :
    constantValue? lead line = none := by
  rw [begins, ← List.isSome_isPrefixOf?_eq_isPrefixOf, Option.isSome_eq_false_iff,
    Option.isNone_iff_eq_none] at h
  rw [constantValue?, h, Option.bind_none]

/-- A line that ends otherwise declares no text constant. -/
theorem constantValue_of_last {lead line : String} (h : line.toList.getLast? ≠ some ';') :
    constantValue? lead line = none := by
  rw [constantValue?, Option.bind_eq_none_iff]
  intro rest hrest
  split
  next value hread =>
    have hline := List.isPrefixOf?_eq_some_iff_append_eq.mp hrest
    obtain ⟨before, hbefore⟩ := Text.readQuoted_suffix hread
    refine (h ?_).elim
    rw [← hline, ← hbefore, ← List.append_assoc]
    exact List.getLast?_concat
  next => rfl

/-! ## The constants of a resource -/

theorem constLine_eq (name value : String) :
    constLine name value = implLead name ++ Text.quoted value ++ ";" := by
  simp only [constLine, implLead, line, String.append_assoc]

def Mute (l : String) : Prop :=
  constantValue? (implLead "API_VERSION") l = none

theorem Mute.of_lead {head : String} (h : begins (implLead "API_VERSION") head = false)
    (h' : begins head (implLead "API_VERSION") = false) (rest : String) : Mute (head ++ rest) :=
  constantValue_of_begins (begins_append_eq_false h h' rest)

theorem Mute.of_end {tail : String} (h : tail.toList.getLast? ≠ some ';') (hne : tail ≠ "")
    (text : String) : Mute (text ++ tail) := by
  apply constantValue_of_last
  have hchars : tail.toList ≠ [] := mt String.toList_eq_nil_iff.mp hne
  rwa [String.toList_append, List.getLast?_append_of_ne_nil _ hchars]

theorem mute_line (depth : Nat) (text : String) {tail : String}
    (h : tail.toList.getLast? ≠ some ';') (hne : tail ≠ "") : Mute (line depth (text ++ tail)) := by
  rw [line, ← String.append_assoc]
  exact .of_end h hne _

theorem mute_openItem (head : String) : Mute (openItem head) :=
  .of_end (by decide) (by decide) head

theorem mute_docLine {depth : Nat} (h : begins (implLead "API_VERSION") (line depth "///") = false)
    (h' : begins (line depth "///") (implLead "API_VERSION") = false) (text : List Char) :
    Mute (docLine depth text) := by
  have hslashes : ∀ rest : String, Mute (line depth ("///" ++ rest)) := by
    intro rest
    rw [line, ← String.append_assoc]
    exact .of_lead h h' rest
  unfold docLine
  split
  · exact hslashes ""
  · have hspace : "/// " = "///" ++ " " := by decide
    rw [hspace, String.append_assoc]
    exact hslashes _

theorem mute_doc (description : String) : ∀ l ∈ doc 0 description, Mute l :=
  forall_mem_doc (mute_docLine (by decide) (by decide)) description

theorem mute_fieldsLines (taken : List String) (fields : List Field) :
    ∀ l ∈ fieldsLines taken fields, Mute l :=
  forall_mem_fieldsLines (mute_docLine (by decide) (by decide))
    (fun _ => mute_line 1 _ (by decide) (by decide))
    (fun _ => mute_line 1 _ (by decide) (by decide))
    taken fields

theorem mute_importLines (m : TypeModel) : ∀ l ∈ importLines m, Mute l := by
  intro l hl
  rcases mem_importLines hl with rfl | ⟨path, rfl⟩
  · exact constantValue_of_begins (by decide)
  · rw [useLine, String.append_assoc]
    exact .of_lead (by decide) (by decide) _

theorem mute_fixed : ∀ l ∈ header ++ [blank, closeItem, structDerives, enumDerives,
    line 1 "#[default]", line 1 "pub metadata: ObjectMeta,", line 1 "pub metadata: ListMeta,"] ++
    apiVersionLines, Mute l := by
  have hbegins : ∀ l ∈ header ++ [blank, closeItem, structDerives, enumDerives,
      line 1 "#[default]", line 1 "pub metadata: ObjectMeta,", line 1 "pub metadata: ListMeta,"] ++
      apiVersionLines, begins (implLead "API_VERSION") l = false := by
    decide +kernel
  exact fun l hl => constantValue_of_begins (hbegins l hl)

theorem mute_structLines (s : StructType) : ∀ l ∈ structLines s, Mute l := by
  simp only [structLines, List.forall_mem_append, List.forall_mem_cons]
  refine ⟨⟨⟨mute_doc _, mute_fixed _ (by simp), mute_openItem _, by simp⟩,
    mute_fieldsLines [] s.fields⟩, mute_fixed _ (by simp), mute_fixed _ (by simp), by simp⟩

theorem mute_listLines (d : Descriptor) : ∀ l ∈ listLines d, Mute l := by
  simp only [listLines, List.forall_mem_append, List.forall_mem_cons]
  refine ⟨⟨⟨mute_doc _, mute_fixed _ (by simp), mute_openItem _, by simp⟩,
    fun l hl => mute_fixed l (List.mem_append_right _ hl)⟩, mute_fixed _ (by simp), ?_,
    mute_fixed _ (by simp), mute_fixed _ (by simp), by simp⟩
  exact mute_line 1 _ (by decide) (by decide)

theorem mute_variantLines (variant : String) (value : Json) :
    ∀ l ∈ variantLines variant value, Mute l := by
  simp only [variantLines, List.forall_mem_cons]
  exact ⟨mute_line 1 _ (by decide) (by decide), mute_line 1 _ (by decide) (by decide), by simp⟩

theorem mute_stringEnumLines (e : EnumType) : ∀ l ∈ stringEnumLines e, Mute l := by
  have hvariants : ∀ l ∈ ((variants e.name [] e.constants).zip e.constants).flatMap fun pair =>
      variantLines pair.1 pair.2.value, Mute l := by
    intro l hl
    obtain ⟨pair, -, hl⟩ := List.mem_flatMap.mp hl
    exact mute_variantLines pair.1 pair.2.value l hl
  simp only [stringEnumLines]
  generalize ((variants e.name [] e.constants).zip e.constants).flatMap _ = body at hvariants ⊢
  simp only [List.forall_mem_append, List.forall_mem_cons]
  refine ⟨⟨⟨mute_fixed _ (by simp), mute_openItem _, by simp⟩, ?_⟩, mute_fixed _ (by simp),
    mute_fixed _ (by simp), by simp⟩
  split
  · simp
  · simp only [List.forall_mem_cons]
    exact ⟨mute_fixed _ (by simp), hvariants⟩

theorem mute_constEnumLines (e : EnumType) : ∀ l ∈ constEnumLines e, Mute l := by
  simp only [constEnumLines, List.forall_mem_append, List.forall_mem_cons, List.forall_mem_map]
  refine ⟨⟨?_, ?_⟩, mute_fixed _ (by simp), by simp⟩
  · simp only [String.append_assoc]
    exact .of_lead (by decide) (by decide) _
  · intro c _
    unfold constantLine
    split
    · simp only [String.append_assoc]
      exact .of_lead (by decide) (by decide) _
    · simp only [String.append_assoc]
      exact .of_lead (by decide) (by decide) _

theorem mute_enumLines (e : EnumType) : ∀ l ∈ enumLines e, Mute l := by
  unfold enumLines
  split
  · exact List.forall_mem_append.mpr ⟨mute_doc _, mute_stringEnumLines e⟩
  · exact List.forall_mem_append.mpr ⟨mute_doc _, mute_constEnumLines e⟩

/-- Mute lines around others say nothing. -/
theorem filterMap_surround {before after : Lines} (hb : ∀ l ∈ before, Mute l)
    (ha : ∀ l ∈ after, Mute l) (lines : Lines) :
    (before ++ lines ++ after).filterMap (constantValue? (implLead "API_VERSION")) =
      lines.filterMap (constantValue? (implLead "API_VERSION")) := by
  rw [List.filterMap_append, List.filterMap_append, List.filterMap_eq_nil_iff.mpr hb,
    List.filterMap_eq_nil_iff.mpr ha, List.nil_append, List.append_nil]

theorem mute_constLine {name : String}
    (h : begins (implLead "API_VERSION") (implLead name) = false)
    (h' : begins (implLead name) (implLead "API_VERSION") = false) (value : String) :
    Mute (constLine name value) := by
  rw [constLine_eq, String.append_assoc]
  exact .of_lead h h' _

/-- The lines of a root structure and its constants, up to the version of the interface. -/
theorem exists_rootLines (m : TypeModel) : ∃ before,
    rootLines m =
        before ++ [constLine "API_VERSION" m.descriptor.apiVersion] ++ [closeItem, blank] ∧
      ∀ l ∈ before, Mute l := by
  refine ⟨doc 0 m.root.description ++ [structDerives, openItem ("pub struct " ++ m.root.name)] ++
    apiVersionLines ++ [line 1 "pub metadata: ObjectMeta,"] ++
    fieldsLines rootIdents m.root.fields ++
    [closeItem, blank, openItem ("impl " ++ m.root.name), constLine "KIND" m.descriptor.kind,
      constLine "PLURAL" m.descriptor.plural], ?_, ?_⟩
  · simp only [rootLines, List.append_assoc, List.cons_append, List.nil_append]
  · simp only [List.forall_mem_append, List.forall_mem_cons]
    exact ⟨⟨⟨⟨⟨mute_doc _, mute_fixed _ (by simp), mute_openItem _, by simp⟩,
      fun l hl => mute_fixed l (List.mem_append_right _ hl)⟩, mute_fixed _ (by simp), by simp⟩,
      mute_fieldsLines _ _⟩, mute_fixed _ (by simp), mute_fixed _ (by simp), mute_openItem _,
      mute_constLine (by decide) (by decide) _, mute_constLine (by decide) (by decide) _, by simp⟩

/-- The file of a resource declares the version of its interface once. -/
theorem constantValue_resourceLines (m : TypeModel) :
    (resourceLines m).filterMap (constantValue? (implLead "API_VERSION")) =
      [m.descriptor.apiVersion] := by
  obtain ⟨before, hroot, hmute⟩ := exists_rootLines m
  have hvalue : constantValue? (implLead "API_VERSION")
      (constLine "API_VERSION" m.descriptor.apiVersion) = some m.descriptor.apiVersion := by
    rw [constLine_eq, constantValue_quoted]
  have hbefore : ∀ l ∈ header ++ importLines m ++ before, Mute l := by
    simp only [List.forall_mem_append]
    refine ⟨⟨fun l hl => mute_fixed l ?_, mute_importLines m⟩, hmute⟩
    exact List.mem_append_left _ (List.mem_append_left _ hl)
  have hafter : ∀ l ∈ [closeItem, blank] ++ listLines m.descriptor ++
      m.structs.flatMap structLines ++ m.enums.flatMap enumLines, Mute l := by
    simp only [List.forall_mem_append, List.forall_mem_cons, List.forall_mem_flatMap]
    exact ⟨⟨⟨⟨mute_fixed _ (by simp), mute_fixed _ (by simp), by simp⟩, mute_listLines _⟩,
      fun s _ => mute_structLines s⟩, fun e _ => mute_enumLines e⟩
  have hlines : resourceLines m = header ++ importLines m ++ before ++
      [constLine "API_VERSION" m.descriptor.apiVersion] ++ ([closeItem, blank] ++
        listLines m.descriptor ++ m.structs.flatMap structLines ++ m.enums.flatMap enumLines) := by
    rw [resourceLines, hroot]
    simp only [List.append_assoc]
  rw [hlines, filterMap_surround hbefore hafter, List.filterMap_cons_some hvalue,
    List.filterMap_nil]

end ResourceTypes.Code
