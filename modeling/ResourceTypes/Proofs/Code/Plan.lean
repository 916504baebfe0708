import ResourceTypes.Proofs.Code.Breaks
import ResourceTypes.Proofs.Code.Versions
import ResourceTypes.Proofs.Text.Case

/-! # What files say of their batch

The file about group and version and the one that ties the modules together are read back: the table
of resources, the version of the interface, and the modules that are declared and exported. Quoted
texts have no line breaks, so the first of them has the lines that were written whatever the names
in it are.
-/

namespace ResourceTypes.Code

/-! ## The table of resources -/

def tableOpening : String := "pub const KINDS: &[(&str, &str)] = &["

def tableClosing : String := "];"

def entryLine (kind plural : String) : String :=
  line 1 ("(" ++ Text.quoted kind ++ ", " ++ Text.quoted plural ++ "),")

def readEntry (line : String) : Option (String × String) :=
  ("    (".toList.isPrefixOf? line.toList).bind fun rest =>
  (Text.readQuoted rest).bind fun kind =>
  (", ".toList.isPrefixOf? kind.2).bind fun rest =>
  (Text.readQuoted rest).bind fun plural =>
    if plural.2 = "),".toList then some (String.ofList kind.1, String.ofList plural.1) else none

def readTable (lines : Lines) : Option (List (String × String)) :=
  (((lines.dropWhile (· ≠ tableOpening)).drop 1).takeWhile (· ≠ tableClosing)).mapM readEntry

theorem readEntry_entryLine (kind plural : String) :
    readEntry (entryLine kind plural) = some (kind, plural) := by
  have hchars : (entryLine kind plural).toList = "    (".toList ++
      (Text.quotedChars kind.toList ++ (", ".toList ++
        (Text.quotedChars plural.toList ++ "),".toList))) := by
    simp [entryLine, line, Text.quoted]
  rw [readEntry, hchars, isPrefixOf?_append, Option.bind_some, Text.readQuoted_quotedChars,
    Option.bind_some, isPrefixOf?_append, Option.bind_some, Text.readQuoted_quotedChars,
    Option.bind_some, if_pos rfl, String.ofList_toList, String.ofList_toList]

theorem entryLine_ne_closing (kind plural : String) : entryLine kind plural ≠ tableClosing := by
  intro h
  have hread := readEntry_entryLine kind plural
  rw [h] at hread
  have hclosing : readEntry tableClosing = none := by decide
  rw [hclosing] at hread
  cases hread

theorem mapM_readEntry (entries : List (String × String)) :
    (entries.map fun e => entryLine e.1 e.2).mapM readEntry = some entries := by
  induction entries with
  | nil => rfl
  | cons e entries ih =>
      rw [List.map_cons, List.mapM_cons, readEntry_entryLine, ih]
      rfl

/-- A table with a line for each resource is read back. -/
theorem readTable_of_lines {before : Lines} (h : tableOpening ∉ before)
    (entries : List (String × String)) (after : Lines) :
    readTable (before ++ tableOpening :: (entries.map (fun e => entryLine e.1 e.2) ++
      tableClosing :: after)) = some entries := by
  have hbefore : (before ++ tableOpening :: (entries.map (fun e => entryLine e.1 e.2) ++
      tableClosing :: after)).dropWhile (· ≠ tableOpening) =
      tableOpening :: (entries.map (fun e => entryLine e.1 e.2) ++ tableClosing :: after) := by
    rw [List.dropWhile_append_of_pos, List.dropWhile_cons_of_neg (by simp)]
    intro l hl
    exact decide_eq_true fun heq => h (heq ▸ hl)
  have hentries : (entries.map (fun e => entryLine e.1 e.2) ++
      tableClosing :: after).takeWhile (· ≠ tableClosing) =
      entries.map fun e => entryLine e.1 e.2 := by
    rw [List.takeWhile_append_of_pos, List.takeWhile_cons_of_neg (by simp), List.append_nil]
    intro l hl
    obtain ⟨e, -, rfl⟩ := List.mem_map.mp hl
    exact decide_eq_true (entryLine_ne_closing e.1 e.2)
  rw [readTable, hbefore, List.drop_one, List.tail_cons, hentries]
  exact mapM_readEntry entries

/-! ## The file about group and version -/

def infoApiVersion (b : Batch) : String :=
  match b.resources with
  | m :: _ => m.descriptor.apiVersion
  | [] => b.version

def infoOpening (b : Batch) : Lines :=
  header ++ ["/// API group of every resource in this module.",
    infoLead "GROUP" ++ Text.quoted b.group ++ ";",
    infoLead "VERSION" ++ Text.quoted b.version ++ ";"]

theorem infoLines_eq (b : Batch) : infoLines b =
    infoOpening b ++ [infoLead "API_VERSION" ++ Text.quoted (infoApiVersion b) ++ ";"] ++
      ([blank, "/// `(kind, plural)` of every resource in this module.", tableOpening] ++
        b.resources.map (fun m => entryLine m.descriptor.kind m.descriptor.plural) ++
        [tableClosing]) := by
  simp only [infoLines, infoOpening, infoLead, infoApiVersion, List.append_assoc, List.cons_append,
    List.nil_append]
  rfl

theorem infoLead_append {name other : String} (h : begins (infoLead other) (infoLead name) = false)
    (h' : begins (infoLead name) (infoLead other) = false) (value : String) :
    constantValue? (infoLead other) (infoLead name ++ Text.quoted value ++ ";") = none := by
  rw [String.append_assoc]
  exact constantValue_of_begins (begins_append_eq_false h h' _)

/-- The file about group and version declares the version of the interface once. -/
theorem constantValue_infoLines (b : Batch) :
    (infoLines b).filterMap (constantValue? (infoLead "API_VERSION")) = [infoApiVersion b] := by
  have hfixed : ∀ l ∈ header ++ ["/// API group of every resource in this module.", blank,
      "/// `(kind, plural)` of every resource in this module.", tableOpening, tableClosing],
      begins (infoLead "API_VERSION") l = false := by
    decide
  have hquiet := fun l hl => constantValue_of_begins (hfixed l hl)
  have hopening : ∀ l ∈ infoOpening b, constantValue? (infoLead "API_VERSION") l = none := by
    simp only [infoOpening, List.forall_mem_append, List.forall_mem_cons]
    exact ⟨fun l hl => hquiet l (List.mem_append_left _ hl), hquiet _ (by simp),
      infoLead_append (by decide) (by decide) _, infoLead_append (by decide) (by decide) _, by simp⟩
  have hentry : ∀ kind plural,
      constantValue? (infoLead "API_VERSION") (entryLine kind plural) = none := by
    intro kind plural
    have hlead : entryLine kind plural =
        "    (" ++ (Text.quoted kind ++ ", " ++ Text.quoted plural ++ "),") := by
      apply String.toList_inj.mp
      simp [entryLine, line]
    rw [hlead]
    exact constantValue_of_begins (begins_append_eq_false (by decide) (by decide) _)
  have hclosing : ∀ l ∈ [blank, "/// `(kind, plural)` of every resource in this module.",
      tableOpening] ++ b.resources.map (fun m => entryLine m.descriptor.kind m.descriptor.plural) ++
      [tableClosing], constantValue? (infoLead "API_VERSION") l = none := by
    simp only [List.forall_mem_append, List.forall_mem_cons, List.forall_mem_map]
    exact ⟨⟨⟨hquiet _ (by simp), hquiet _ (by simp), hquiet _ (by simp), by simp⟩,
      fun m _ => hentry _ _⟩, hquiet _ (by simp), by simp⟩
  rw [infoLines_eq, List.filterMap_append, List.filterMap_append,
    List.filterMap_eq_nil_iff.mpr hopening, List.filterMap_eq_nil_iff.mpr hclosing,
    List.filterMap_cons_some (constantValue_quoted _ _), List.filterMap_nil, List.nil_append,
    List.append_nil]

theorem ne_of_begins {text line : String} (h : begins text line = false) : line ≠ text := by
  rintro rfl
  have hself := begins_iff.mpr (List.prefix_refl line.toList)
  rw [h] at hself
  cases hself

/-- The table of the file about group and version has a line for each resource. -/
theorem readTable_infoLines (b : Batch) (after : Lines) :
    readTable (infoLines b ++ after) =
      some (b.resources.map fun m => (m.descriptor.kind, m.descriptor.plural)) := by
  have hfixed : tableOpening ∉ header ++ ["/// API group of every resource in this module.", blank,
      "/// `(kind, plural)` of every resource in this module."] := by
    decide
  have hconst : ∀ name value : String, begins tableOpening (infoLead name) = false →
      begins (infoLead name) tableOpening = false →
      infoLead name ++ Text.quoted value ++ ";" ≠ tableOpening := by
    intro name value h h'
    rw [String.append_assoc]
    exact ne_of_begins (begins_append_eq_false h h' _)
  have hbefore : tableOpening ∉ infoOpening b ++
      [infoLead "API_VERSION" ++ Text.quoted (infoApiVersion b) ++ ";"] ++
      [blank, "/// `(kind, plural)` of every resource in this module."] := by
    have hgroup := hconst "GROUP" b.group (by decide) (by decide)
    have hversion := hconst "VERSION" b.version (by decide) (by decide)
    have hapi := hconst "API_VERSION" (infoApiVersion b) (by decide) (by decide)
    simp only [List.mem_append, List.mem_cons, List.not_mem_nil, or_false, not_or] at hfixed
    simp only [infoOpening, List.mem_append, List.mem_cons, List.not_mem_nil, or_false, not_or]
    exact ⟨⟨⟨hfixed.1, hfixed.2.1, hgroup.symm, hversion.symm⟩, hapi.symm⟩, hfixed.2.2⟩
  have htable := readTable_of_lines hbefore
    (b.resources.map fun m => (m.descriptor.kind, m.descriptor.plural)) after
  rw [List.map_map] at htable
  rw [← htable, infoLines_eq]
  simp only [List.append_assoc, List.cons_append, List.nil_append]
  rfl

/-- The lines of the file about group and version, whatever the names in it are. -/
theorem linesOf_infoLines (b : Batch) : linesOf (textOf (infoLines b)) = infoLines b ++ [""] := by
  apply linesOf_textOf
  have hfixed : ∀ l ∈ header ++ ["/// API group of every resource in this module.", blank,
      "/// `(kind, plural)` of every resource in this module.", tableOpening, tableClosing],
      Unbroken l := by
    decide
  have hconst : ∀ name value : String, Unbroken (infoLead name) →
      Unbroken (infoLead name ++ Text.quoted value ++ ";") := fun name value h =>
    (h.append (unbroken_quoted value)).append (by decide)
  rw [infoLines_eq, infoOpening]
  simp only [List.forall_mem_append, List.forall_mem_cons, List.forall_mem_map]
  refine ⟨⟨⟨fun l hl => hfixed l (List.mem_append_left _ hl), hfixed _ (by simp),
    hconst _ _ (by decide), hconst _ _ (by decide), by simp⟩, hconst _ _ (by decide), by simp⟩,
    ⟨⟨hfixed _ (by simp), hfixed _ (by simp), hfixed _ (by simp), by simp⟩, fun m _ => ?_⟩,
    hfixed _ (by simp), by simp⟩
  simp only [entryLine, unbroken_line, unbroken_append]
  exact ⟨⟨⟨⟨by decide, unbroken_quoted _⟩, by decide⟩, unbroken_quoted _⟩, by decide⟩

/-! ## Modules -/

def modLine (name : String) : String :=
  "pub mod " ++ name ++ ";"

def exportLine (name : String) : String :=
  "pub use " ++ name ++ "::*;"

theorem modLines_eq (b : Batch) : modLines b =
    header ++ (modules b).map modLine ++ [blank] ++ (modules b).map exportLine := rfl

theorem modules_perm (b : Batch) :
    (modules b).Perm (b.resources.map moduleOf ++ [infoModule]) :=
  List.mergeSort_perm _ _

/-- A line with the lead of a module declares it, and one with the lead of an export does not. -/
theorem begins_modLine (name : String) :
    begins "pub mod " (modLine name) = true ∧ begins "pub use " (modLine name) = false := by
  rw [modLine, String.append_assoc]
  exact ⟨begins_append _ _, begins_append_eq_false (by decide) (by decide) _⟩

theorem begins_exportLine (name : String) :
    begins "pub mod " (exportLine name) = false ∧ begins "pub use " (exportLine name) = true := by
  rw [exportLine, String.append_assoc]
  exact ⟨begins_append_eq_false (by decide) (by decide) _, begins_append _ _⟩

/-- Each module is declared once and exported once, and nothing else is. -/
theorem filter_modLines (b : Batch) :
    (modLines b).filter (begins "pub mod ") = (modules b).map modLine ∧
      (modLines b).filter (begins "pub use ") = (modules b).map exportLine := by
  have hheader :
      header.filter (begins "pub mod ") = [] ∧ header.filter (begins "pub use ") = [] := by
    decide
  have hblank :
      [blank].filter (begins "pub mod ") = [] ∧ [blank].filter (begins "pub use ") = [] := by
    decide
  have hmods : ((modules b).map modLine).filter (begins "pub mod ") = (modules b).map modLine ∧
      ((modules b).map modLine).filter (begins "pub use ") = [] := by
    simp [List.filter_eq_self, List.filter_eq_nil_iff, begins_modLine]
  have hexports : ((modules b).map exportLine).filter (begins "pub mod ") = [] ∧
      ((modules b).map exportLine).filter (begins "pub use ") = (modules b).map exportLine := by
    simp [List.filter_eq_self, List.filter_eq_nil_iff, begins_exportLine]
  simp only [modLines_eq, List.filter_append, hheader, hblank, hmods, hexports, List.nil_append,
    List.append_nil, and_self]

theorem not_mem_moduleOf {mark : Char} (hm : Text.IsMark mark) {m : TypeModel}
    (h : mark ∉ m.descriptor.kind.toList) : mark ∉ (moduleOf m).toList := by
  have hword : "types_".toList.all (fun c => !decide (Text.IsMark c)) = true := by decide
  rw [moduleOf, Naming.moduleName, String.toList_append, List.mem_append, not_or]
  refine ⟨fun hmem => ?_, mt (Text.mem_of_mem_lowercase hm) h⟩
  have hmark := List.all_eq_true.mp hword mark hmem
  simp [hm] at hmark

/-- The lines of the file that declares the modules, where no kind breaks them. -/
theorem linesOf_modLines {b : Batch} (h : ∀ m ∈ b.resources, Unbroken m.descriptor.kind) :
    linesOf (textOf (modLines b)) = modLines b ++ [""] := by
  have hmodules : ∀ name ∈ modules b, Unbroken name := by
    intro name hname
    rcases List.mem_append.mp ((modules_perm b).mem_iff.mp hname) with hname | hname
    · obtain ⟨m, hm, rfl⟩ := List.mem_map.mp hname
      exact not_mem_moduleOf (by decide) (h m hm)
    · rw [List.mem_singleton.mp hname]
      decide
  have hfixed : ∀ l ∈ header ++ [blank], Unbroken l := by decide
  apply linesOf_textOf
  rw [modLines_eq]
  simp only [List.forall_mem_append, List.forall_mem_map, modLine, exportLine, unbroken_append]
  exact ⟨⟨⟨fun l hl => hfixed l (List.mem_append_left _ hl),
    fun name hname => ⟨⟨by decide, hmodules name hname⟩, by decide⟩⟩,
    fun l hl => hfixed l (List.mem_append_right _ hl)⟩,
    fun name hname => ⟨⟨by decide, hmodules name hname⟩, by decide⟩⟩

/-! ## Files -/

def pathOf (b : Batch) (name : String) : String :=
  Path.join b.version (name ++ ".rs")

def resourceFile (b : Batch) (m : TypeModel) : OutputFile :=
  ⟨pathOf b (moduleOf m), textOf (resourceLines m)⟩

def infoFile (b : Batch) : OutputFile :=
  ⟨pathOf b infoModule, textOf (infoLines b)⟩

def modFile (b : Batch) : OutputFile :=
  ⟨pathOf b "mod", textOf (modLines b)⟩

@[simp] theorem resourceFile_contents (b : Batch) (m : TypeModel) :
    (resourceFile b m).contents = textOf (resourceLines m) := by
  rw [resourceFile]

theorem files_eq (b : Batch) :
    files b = b.resources.map (resourceFile b) ++ [infoFile b] ++ [modFile b] := by
  rw [List.append_assoc]
  rfl

/-- The constant of a resource is a line of its file, whatever the other lines are. -/
theorem constLine_mem_linesOf (b : Batch) (m : TypeModel) :
    constLine "API_VERSION" m.descriptor.apiVersion ∈ linesOf (resourceFile b m).contents := by
  rw [resourceFile_contents]
  refine unbroken_mem_linesOf ?_ (unbroken_constLine (by decide) _)
  simp [resourceLines, rootLines]

theorem isName_file {name : String} (h : '/' ∉ name.toList) : Path.IsName (name ++ ".rs") := by
  have hdots : ∀ other ∈ ["", ".", ".."], 's' ∉ other.toList := by decide
  have hletter : 's' ∈ (name ++ ".rs").toList := by simp
  exact ⟨by simp [h], fun hmem => hdots _ hmem hletter⟩

/-- The file of a module is one component below the directory of the version. -/
theorem components_pathOf (b : Batch) {name : String} (h : '/' ∉ name.toList) :
    Path.components (pathOf b name) = Path.components b.version ++ [.named (name ++ ".rs")] :=
  Path.components_join _ (isName_file h)

end ResourceTypes.Code
