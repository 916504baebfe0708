import Mathlib.Data.List.Basic
import ResourceTypes.Code.File

/-! # What the lines of a file are

A line of a file that opens with `use` stands among the imports, a line that declares a type is the
head of an item, and a line that declares a constant belongs to an enumeration. Documentation,
attributes and fields never look like any of them, whatever names and texts they hold.

Lines are taken here as they are written, before they are joined to the text of the file. They are
the lines of that text where no name holds a line break, `UnbrokenNames.linesOf_resourceLines`, and
where a name holds one, a line is written whose end is a line of the text as well.
-/

namespace ResourceTypes.Code

def begins (text line : String) : Bool :=
  text.toList.isPrefixOf line.toList

def declarationLeads : List String :=
  ["pub struct ", "pub enum ", "pub type "]

def isUse (line : String) : Bool :=
  begins "use " line

def isDeclaration (line : String) : Bool :=
  declarationLeads.any (begins · line)

def isConstant (line : String) : Bool :=
  begins "pub const " line

inductive Declaration
  | struct (name : String)
  | enum (name : String)
  | typeAlias (name : String) (base : TypeRef)

namespace Declaration

def name : Declaration → String
  | .struct name => name
  | .enum name => name
  | .typeAlias name _ => name

def line : Declaration → String
  | .struct name => openItem ("pub struct " ++ name)
  | .enum name => openItem ("pub enum " ++ name)
  | .typeAlias name base => "pub type " ++ name ++ " = " ++ typeText base ++ ";"

end Declaration

structure Constant where
  name : String
  type : String
  literal : String

def Constant.line (c : Constant) : String :=
  "pub const " ++ c.name ++ ": " ++ c.type ++ " = " ++ c.literal ++ ";"

/-- The declared constant of an enumeration constant, where its type has a literal for the value. -/
def constantOf? (e : EnumType) (c : EnumConstant) : Option Constant :=
  (constLiteral? e.base c.value).map fun literal => ⟨constName c.name, e.name, literal⟩

/-- The constants that an enumeration declares, unless it is one of strings. -/
def constantsOf (e : EnumType) : List Constant :=
  if EnumType.isStringEnum e then [] else e.constants.filterMap (constantOf? e)

/-- The constants that the file of a model declares outside of other items. -/
def constants (m : TypeModel) : List Constant :=
  m.enums.flatMap constantsOf

theorem mem_constantsOf {e : EnumType} {c : Constant} :
    c ∈ constantsOf e ↔
      EnumType.isStringEnum e = false ∧ ∃ source ∈ e.constants, constantOf? e source = some c := by
  unfold constantsOf
  split
  next h => simp [h]
  next h => simp [h, List.mem_filterMap]

/-- An enumeration is declared as such or as a name for its base. -/
def declarationOf (e : EnumType) : Declaration :=
  if EnumType.isStringEnum e then .enum e.name else .typeAlias e.name e.base

def declarations (m : TypeModel) : List Declaration :=
  .struct m.root.name :: .struct m.descriptor.listKind ::
    (m.structs.map fun s => .struct s.name) ++ m.enums.map declarationOf

def useLine (path : String) : String :=
  "use " ++ path ++ ";"

def mapPath : String := "std::collections::BTreeMap"

def serdePath : String := "serde::\x7bDeserialize, Serialize\x7d"

def siblingsPath : String := "super::*"

def usePaths (m : TypeModel) : List String :=
  (if m.types.any TypeRef.hasMapping then [mapPath] else []) ++
    ((m.imports.map External.path).mergeSort fun a b => decide (a ≤ b)) ++ [serdePath] ++
    (if needsSiblings m then [siblingsPath] else [])

/-! ## Quiet lines -/

/-- Whether a line neither imports nor declares. -/
structure Quiet (line : String) : Prop where
  use : isUse line = false
  declaration : isDeclaration line = false
  constant : isConstant line = false

instance (line : String) : Decidable (Quiet line) :=
  decidable_of_iff (isUse line = false ∧ isDeclaration line = false ∧ isConstant line = false)
    ⟨fun h => ⟨h.1, h.2.1, h.2.2⟩, fun h => ⟨h.use, h.declaration, h.constant⟩⟩

def leads : List String :=
  "use " :: "pub const " :: declarationLeads

theorem isPrefixOf?_append (text rest : List Char) : text.isPrefixOf? (text ++ rest) = some rest :=
  List.isPrefixOf?_eq_some_iff_append_eq.mpr rfl

theorem begins_iff {text line : String} : begins text line = true ↔ text.toList <+: line.toList :=
  List.isPrefixOf_iff_prefix

theorem begins_append (text rest : String) : begins text (text ++ rest) = true := by
  rw [begins_iff, String.toList_append]
  exact List.prefix_append _ _

/-- Texts that differ where both have a character differ whatever follows. -/
theorem begins_append_eq_false {text head : String} (h : begins text head = false)
    (h' : begins head text = false) (rest : String) : begins text (head ++ rest) = false := by
  rw [Bool.eq_false_iff] at h h' ⊢
  rw [Ne, begins_iff] at h h' ⊢
  intro hp
  rw [String.toList_append] at hp
  rcases List.prefix_or_prefix_of_prefix hp (List.prefix_append _ _) with hp | hp
  · exact h hp
  · exact h' hp

/-- A line has one lead at most. -/
theorem lead_unique {lead other line : String} (hl : lead ∈ leads) (ho : other ∈ leads)
    (h : begins lead line = true) (h' : begins other line = true) : lead = other := by
  have hleads : ∀ lead ∈ leads, ∀ other ∈ leads, begins lead other = true → lead = other := by
    decide
  rcases List.prefix_or_prefix_of_prefix (begins_iff.mp h) (begins_iff.mp h') with hp | hp
  · exact hleads lead hl other ho (begins_iff.mpr hp)
  · exact (hleads other ho lead hl (begins_iff.mpr hp)).symm

/-- A line with the lead of an import or a constant declares no type. -/
theorem isDeclaration_eq_false {lead line : String} (hl : lead ∈ leads)
    (hn : lead ∉ declarationLeads) (h : begins lead line = true) : isDeclaration line = false := by
  rw [isDeclaration, List.any_eq_false]
  intro other ho h'
  have hlead : lead = other :=
    lead_unique hl (List.mem_cons_of_mem _ (List.mem_cons_of_mem _ ho)) h h'
  exact hn (hlead ▸ ho)

/-- A line with one lead does not begin with another one. -/
theorem begins_eq_false {lead other line : String} (hl : lead ∈ leads) (ho : other ∈ leads)
    (hne : lead ≠ other) (h : begins lead line = true) : begins other line = false :=
  Bool.eq_false_iff.mpr fun h' => hne (lead_unique hl ho h h')

/-- No line both imports and declares. -/
theorem isDeclaration_of_isUse {l : String} (h : isUse l = true) : isDeclaration l = false :=
  isDeclaration_eq_false (by decide) (by decide) h

/-- Whether no text that begins like this one imports or declares. -/
def Apart (head : String) : Prop :=
  ∀ lead ∈ leads, begins lead head = false ∧ begins head lead = false

instance (head : String) : Decidable (Apart head) :=
  inferInstanceAs (Decidable (∀ lead ∈ leads, _))

theorem Apart.begins_eq_false {head lead : String} (h : Apart head) (hl : lead ∈ leads)
    (rest : String) : begins lead (head ++ rest) = false :=
  begins_append_eq_false (h lead hl).1 (h lead hl).2 rest

theorem Apart.quiet {head : String} (h : Apart head) (rest : String) : Quiet (head ++ rest) where
  use := h.begins_eq_false (by decide) rest
  declaration := by
    rw [isDeclaration, List.any_eq_false]
    intro lead hl
    have hlead : lead ∈ leads := List.mem_cons_of_mem _ (List.mem_cons_of_mem _ hl)
    exact ne_true_of_eq_false (h.begins_eq_false hlead rest)
  constant := h.begins_eq_false (by decide) rest

theorem line_zero (text : String) : line 0 text = text :=
  String.empty_append

theorem quiet_line (depth : Nat) (text : String) : Quiet (line (depth + 1) text) := by
  have happart : Apart " " := by decide
  have hline : line (depth + 1) text =
      " " ++ (String.ofList (List.replicate (4 * depth + 3) ' ') ++ text) := by
    apply String.toList_inj.mp
    simp [line, Nat.mul_add, List.replicate_succ]
  rw [hline]
  exact happart.quiet _

theorem quiet_docLine (depth : Nat) (text : List Char) : Quiet (docLine depth text) := by
  cases depth with
  | succ depth =>
      unfold docLine
      split
      · exact quiet_line depth _
      · exact quiet_line depth _
  | zero =>
      unfold docLine
      split
      · rw [line_zero]
        decide
      · rw [line_zero]
        have happart : Apart "/// " := by decide
        exact happart.quiet _

/-- Whatever holds of the lines of documentation holds of a description. -/
theorem forall_mem_doc {P : String → Prop} {depth : Nat} (h : ∀ text, P (docLine depth text))
    (description : String) : ∀ l ∈ doc depth description, P l := by
  intro l hl
  unfold doc at hl
  split at hl
  · simp at hl
  · obtain ⟨text, -, rfl⟩ := List.mem_map.mp hl
    exact h text

/-- Whatever holds of documentation, attributes and declared fields holds of all lines of fields. -/
theorem forall_mem_fieldsLines {P : String → Prop} (hdoc : ∀ text, P (docLine 1 text))
    (hattributes : ∀ text, P (line 1 (text ++ ")]"))) (hfield : ∀ text, P (line 1 (text ++ ",")))
    (taken : List String) (fields : List Field) : ∀ l ∈ fieldsLines taken fields, P l := by
  intro l hl
  obtain ⟨⟨ident, field⟩, -, hl⟩ := List.mem_flatMap.mp hl
  rcases List.mem_append.mp hl with hl | hl
  · split at hl
    · exact forall_mem_doc hdoc _ l hl
    · simp at hl
  · simp only [List.mem_cons, List.not_mem_nil, or_false] at hl
    rcases hl with rfl | rfl
    · exact hattributes _
    · exact hfield _

theorem quiet_doc (depth : Nat) (description : String) : ∀ l ∈ doc depth description, Quiet l :=
  forall_mem_doc (quiet_docLine depth) description

theorem quiet_fieldsLines (taken : List String) (fields : List Field) :
    ∀ l ∈ fieldsLines taken fields, Quiet l :=
  forall_mem_fieldsLines (quiet_docLine 1) (fun _ => quiet_line 0 _) (fun _ => quiet_line 0 _) taken
    fields

/-! ## Stretches of items -/

/-- Whether lines import nothing and declare some types and some constants in order. -/
structure Declares (lines : Lines) (items : List Declaration) (consts : List Constant) : Prop where
  uses : lines.filter isUse = []
  declarations : lines.filter isDeclaration = items.map Declaration.line
  constants : lines.filter isConstant = consts.map Constant.line

namespace Declares

variable {lines more : Lines} {items others : List Declaration} {consts consts' : List Constant}

theorem append (h : Declares lines items consts) (h' : Declares more others consts') :
    Declares (lines ++ more) (items ++ others) (consts ++ consts') where
  uses := by rw [List.filter_append, h.uses, h'.uses, List.append_nil]
  declarations := by
    rw [List.filter_append, h.declarations, h'.declarations, List.map_append]
  constants := by rw [List.filter_append, h.constants, h'.constants, List.map_append]

theorem of_quiet (h : ∀ l ∈ lines, Quiet l) : Declares lines [] [] where
  uses := List.filter_eq_nil_iff.mpr fun l hl => ne_true_of_eq_false (h l hl).use
  declarations := List.filter_eq_nil_iff.mpr fun l hl => ne_true_of_eq_false (h l hl).declaration
  constants := List.filter_eq_nil_iff.mpr fun l hl => ne_true_of_eq_false (h l hl).constant

/-- Quiet lines may stand around what declares. -/
theorem surround (h : Declares lines items consts) {before after : Lines}
    (hb : ∀ l ∈ before, Quiet l) (ha : ∀ l ∈ after, Quiet l) :
    Declares (before ++ lines ++ after) items consts := by
  have happend := ((of_quiet hb).append h).append (of_quiet ha)
  rwa [List.nil_append, List.nil_append, List.append_nil, List.append_nil] at happend

theorem flatMap {α : Type} {f : α → Lines} {item : α → Declaration} {g : α → List Constant}
    {l : List α} (h : ∀ a ∈ l, Declares (f a) [item a] (g a)) :
    Declares (l.flatMap f) (l.map item) (l.flatMap g) := by
  induction l with
  | nil => exact of_quiet (by simp)
  | cons a l ih =>
      have hrest := ih fun b hb => h b (List.mem_cons_of_mem _ hb)
      exact (h a List.mem_cons_self).append hrest

end Declares

/-! ## Items -/

theorem Declaration.exists_lead (d : Declaration) :
    ∃ lead ∈ declarationLeads, ∃ rest, d.line = lead ++ rest := by
  cases d with
  | struct name => exact ⟨"pub struct ", by decide, _, String.append_assoc⟩
  | enum name => exact ⟨"pub enum ", by decide, _, String.append_assoc⟩
  | typeAlias name base =>
      refine ⟨"pub type ", by decide, name ++ " = " ++ typeText base ++ ";", ?_⟩
      simp only [line, String.append_assoc]

theorem Declares.item (d : Declaration) : Declares [d.line] [d] [] := by
  obtain ⟨lead, hlead, rest, hline⟩ := d.exists_lead
  have hbegins : begins lead d.line = true := by
    rw [hline]
    exact begins_append lead rest
  have hmem : lead ∈ leads := List.mem_cons_of_mem _ (List.mem_cons_of_mem _ hlead)
  have hother : ∀ other ∈ leads, other ∉ declarationLeads → begins other d.line = false :=
    fun other ho hn => begins_eq_false hmem ho (fun he => hn (he ▸ hlead)) hbegins
  have huse : isUse d.line = false := hother _ (by decide) (by decide)
  have hconstant : isConstant d.line = false := hother _ (by decide) (by decide)
  exact ⟨List.filter_cons_of_neg (ne_true_of_eq_false huse),
    List.filter_cons_of_pos (List.any_eq_true.mpr ⟨lead, hlead, hbegins⟩),
    List.filter_cons_of_neg (ne_true_of_eq_false hconstant)⟩

theorem Declaration.isDeclaration_line (d : Declaration) : isDeclaration d.line = true :=
  List.filter_eq_self.mp (Declares.item d).declarations _ (List.mem_singleton_self _)

def itemBody (head : String) (lines : Lines) : Lines :=
  ((lines.dropWhile (· ≠ head)).drop 1).takeWhile (· ≠ closeItem)

/-- The body of an item behind its head. -/
theorem itemBody_append {d : Declaration} {before body : Lines} (hbefore : ∀ l ∈ before, Quiet l)
    (hbody : ∀ l ∈ body, l ≠ closeItem) (after : Lines) :
    itemBody d.line (before ++ d.line :: (body ++ closeItem :: after)) = body := by
  have hne : ∀ l ∈ before, l ≠ d.line := by
    rintro l hl rfl
    have hhead := d.isDeclaration_line
    rw [(hbefore _ hl).declaration] at hhead
    cases hhead
  rw [itemBody, List.dropWhile_append_of_pos fun l hl => decide_eq_true (hne l hl),
    List.dropWhile_cons_of_neg (by simp), List.drop_one, List.tail_cons,
    List.takeWhile_append_of_pos fun l hl => decide_eq_true (hbody l hl),
    List.takeWhile_cons_of_neg (by simp), List.append_nil]

theorem line_ne_closeItem (depth : Nat) (text : String) : line (depth + 1) text ≠ closeItem := by
  intro h
  have hhead := congrArg (fun l : String => l.toList.head?) h
  simp [line, closeItem, Nat.mul_add, List.replicate_succ] at hhead

theorem Declares.constant (c : Constant) : Declares [c.line] [] [c] := by
  have hbegins : begins "pub const " c.line = true := by
    simp only [Constant.line, String.append_assoc]
    exact begins_append "pub const " _
  have huse : isUse c.line = false := begins_eq_false (by decide) (by decide) (by decide) hbegins
  have hdeclaration : isDeclaration c.line = false :=
    isDeclaration_eq_false (by decide) (by decide) hbegins
  exact ⟨List.filter_cons_of_neg (ne_true_of_eq_false huse),
    List.filter_cons_of_neg (ne_true_of_eq_false hdeclaration), List.filter_cons_of_pos hbegins⟩

/-- A constant without a literal is only remarked. -/
theorem declares_constantLine (e : EnumType) (c : EnumConstant) :
    Declares [constantLine e c] [] (constantOf? e c).toList := by
  unfold constantLine constantOf?
  cases constLiteral? e.base c.value with
  | some literal => exact .constant ⟨constName c.name, e.name, literal⟩
  | none =>
      have hremark : Apart "// " := by decide
      refine .of_quiet (List.forall_mem_singleton.mpr ?_)
      simp only [String.append_assoc]
      exact hremark.quiet _

theorem declares_constantLines (e : EnumType) (cs : List EnumConstant) :
    Declares (cs.map (constantLine e)) [] (cs.filterMap (constantOf? e)) := by
  induction cs with
  | nil => exact .of_quiet (by simp)
  | cons c cs ih =>
      have hcons : (c :: cs).filterMap (constantOf? e) =
          (constantOf? e c).toList ++ cs.filterMap (constantOf? e) := by
        rw [List.filterMap_cons]
        cases constantOf? e c <;> rfl
      rw [hcons]
      exact (declares_constantLine e c).append ih

/-- A documented item with its attribute declares its type, and its body does not matter. -/
theorem declares_item (d : Declaration) (description : String) {derives : String}
    (hd : Quiet derives) {body : Lines} (hb : ∀ l ∈ body, Quiet l) :
    Declares (doc 0 description ++ [derives, d.line] ++ body) [d] [] := by
  have hbefore : ∀ l ∈ doc 0 description ++ [derives], Quiet l := by
    simp only [List.forall_mem_append, List.forall_mem_singleton]
    exact ⟨quiet_doc 0 description, hd⟩
  have hitem := (Declares.item d).surround hbefore hb
  rwa [List.append_assoc (doc 0 description)] at hitem

theorem quiet_structDerives : Quiet structDerives := by decide

theorem quiet_enumDerives : Quiet enumDerives := by decide

theorem quiet_closeItem : Quiet closeItem := by decide

theorem quiet_blank : Quiet blank := by decide

theorem quiet_apiVersionLines : ∀ l ∈ apiVersionLines, Quiet l := by decide

theorem declares_structLines (s : StructType) : Declares (structLines s) [.struct s.name] [] := by
  have hbody : ∀ l ∈ fieldsLines [] s.fields ++ [closeItem, blank], Quiet l := by
    simp only [List.forall_mem_append, List.forall_mem_cons]
    exact ⟨quiet_fieldsLines [] s.fields, quiet_closeItem, quiet_blank, by simp⟩
  have hitem := declares_item (.struct s.name) s.description quiet_structDerives hbody
  rwa [← List.append_assoc] at hitem

theorem declares_rootLines (m : TypeModel) : Declares (rootLines m) [.struct m.root.name] [] := by
  have himpl : Apart "impl " := by decide
  have hbody : ∀ l ∈ apiVersionLines ++ ([line 1 "pub metadata: ObjectMeta,"] ++
      (fieldsLines rootIdents m.root.fields ++
        [closeItem, blank, openItem ("impl " ++ m.root.name), constLine "KIND" m.descriptor.kind,
          constLine "PLURAL" m.descriptor.plural, constLine "API_VERSION" m.descriptor.apiVersion,
          closeItem, blank])), Quiet l := by
    simp only [List.forall_mem_append, List.forall_mem_cons, openItem, String.append_assoc]
    exact ⟨quiet_apiVersionLines, ⟨quiet_line 0 _, by simp⟩, quiet_fieldsLines _ _,
      quiet_closeItem, quiet_blank, himpl.quiet _, quiet_line 0 _, quiet_line 0 _, quiet_line 0 _,
      quiet_closeItem, quiet_blank, by simp⟩
  have hitem := declares_item (.struct m.root.name) m.root.description quiet_structDerives hbody
  simp only [← List.append_assoc] at hitem
  exact hitem

theorem declares_listLines (d : Descriptor) : Declares (listLines d) [.struct d.listKind] [] := by
  have hbody : ∀ l ∈ apiVersionLines ++ [line 1 "pub metadata: ListMeta,",
      line 1 ("pub items: Vec<" ++ d.kind ++ ">,"), closeItem, blank], Quiet l := by
    simp only [List.forall_mem_append, List.forall_mem_cons]
    exact ⟨quiet_apiVersionLines, quiet_line 0 _, quiet_line 0 _, quiet_closeItem, quiet_blank,
      by simp⟩
  have hitem := declares_item (.struct d.listKind) (d.listKind ++ " is a list of " ++ d.kind ++ ".")
    quiet_structDerives hbody
  rwa [← List.append_assoc] at hitem

theorem quiet_variantLines (variant : String) (value : Json) :
    ∀ l ∈ variantLines variant value, Quiet l := by
  simp only [variantLines, List.forall_mem_cons]
  exact ⟨quiet_line 0 _, quiet_line 0 _, by simp⟩

theorem declares_stringEnumLines (e : EnumType) (description : String) :
    Declares (doc 0 description ++ stringEnumLines e) [.enum e.name] [] := by
  have hvariants : ∀ l ∈ ((variants e.name [] e.constants).zip e.constants).flatMap fun pair =>
      variantLines pair.1 pair.2.value, Quiet l := by
    intro l hl
    obtain ⟨pair, -, hl⟩ := List.mem_flatMap.mp hl
    exact quiet_variantLines pair.1 pair.2.value l hl
  simp only [stringEnumLines]
  generalize ((variants e.name [] e.constants).zip e.constants).flatMap _ = body at hvariants ⊢
  have hbody : ∀ l ∈ (if body.isEmpty then [] else line 1 "#[default]" :: body) ++
      [closeItem, blank], Quiet l := by
    simp only [List.forall_mem_append, List.forall_mem_cons]
    refine ⟨?_, quiet_closeItem, quiet_blank, by simp⟩
    split
    · simp
    · simp only [List.forall_mem_cons]
      exact ⟨quiet_line 0 _, hvariants⟩
  have hitem := declares_item (.enum e.name) description quiet_enumDerives hbody
  rw [List.append_assoc] at hitem
  simp only [List.append_assoc]
  exact hitem

theorem declares_constEnumLines (e : EnumType) (description : String) :
    Declares (doc 0 description ++ constEnumLines e) [.typeAlias e.name e.base]
      (e.constants.filterMap (constantOf? e)) := by
  have hitem := ((Declares.item (.typeAlias e.name e.base)).append
    (declares_constantLines e e.constants)).surround (quiet_doc 0 description)
    (List.forall_mem_singleton.mpr quiet_blank)
  rwa [List.append_assoc] at hitem

theorem declares_enumLines (e : EnumType) :
    Declares (enumLines e) [declarationOf e] (constantsOf e) := by
  unfold enumLines declarationOf constantsOf
  split
  · exact declares_stringEnumLines e e.description
  · exact declares_constEnumLines e e.description

/-! ## Files -/

theorem quiet_header : ∀ l ∈ header, Quiet l := by decide

theorem isUse_useLine (path : String) : isUse (useLine path) = true := by
  rw [useLine, String.append_assoc]
  exact begins_append "use " _

theorem useLine_injective {path other : String} (h : useLine path = useLine other) :
    path = other := by
  have hl := congrArg String.toList h
  simp only [useLine, String.toList_append] at hl
  exact String.toList_inj.mp (List.append_cancel_left (List.append_cancel_right hl))

/-- The imports are set apart by blank lines. -/
theorem filter_isUse_importLines (m : TypeModel) :
    (importLines m).filter isUse = (usePaths m).map useLine := by
  have hpaths : ∀ paths : List String, (paths.map useLine).filter isUse = paths.map useLine :=
    fun paths => List.filter_eq_self.mpr (List.forall_mem_map.mpr fun path _ => isUse_useLine path)
  have hblank : isUse blank = false := quiet_blank.use
  have hlines : importLines m =
      (if m.types.any TypeRef.hasMapping then [useLine mapPath, blank] else []) ++
        (((m.imports.map External.path).mergeSort fun a b => decide (a ≤ b)).map useLine) ++
        [useLine serdePath] ++ (if needsSiblings m then [blank, useLine siblingsPath] else []) ++
        [blank] :=
    rfl
  rw [hlines]
  simp only [usePaths, List.map_append, apply_ite (List.map useLine), List.filter_append, hpaths,
    apply_ite (List.filter isUse), List.filter_cons, hblank, isUse_useLine, List.filter_nil,
    List.append_nil, if_true, Bool.false_eq_true, if_false, List.map_cons, List.map_nil]

theorem mem_importLines {m : TypeModel} {l : String} (hl : l ∈ importLines m) :
    l = blank ∨ ∃ path, l = useLine path := by
  simp only [importLines, List.mem_append, List.mem_ite_nil_right, List.mem_cons,
    List.not_mem_nil, or_false, List.mem_map] at hl
  rcases hl with (((⟨-, rfl | rfl⟩ | ⟨path, -, rfl⟩) | rfl) | ⟨-, rfl | rfl⟩) | rfl
  · exact .inr ⟨mapPath, rfl⟩
  · exact .inl rfl
  · exact .inr ⟨path, rfl⟩
  · exact .inr ⟨serdePath, rfl⟩
  · exact .inl rfl
  · exact .inr ⟨siblingsPath, rfl⟩
  · exact .inl rfl

theorem filter_isDeclaration_importLines (m : TypeModel) :
    (importLines m).filter isDeclaration = [] := by
  refine List.filter_eq_nil_iff.mpr fun l hl => ne_true_of_eq_false ?_
  rcases mem_importLines hl with rfl | ⟨path, rfl⟩
  · exact quiet_blank.declaration
  · exact isDeclaration_of_isUse (isUse_useLine path)

theorem filter_isConstant_importLines (m : TypeModel) :
    (importLines m).filter isConstant = [] := by
  refine List.filter_eq_nil_iff.mpr fun l hl => ne_true_of_eq_false ?_
  rcases mem_importLines hl with rfl | ⟨path, rfl⟩
  · exact quiet_blank.constant
  · exact begins_eq_false (by decide) (by decide) (by decide) (isUse_useLine path)

theorem declares_items (m : TypeModel) :
    Declares (rootLines m ++ listLines m.descriptor ++ m.structs.flatMap structLines ++
      m.enums.flatMap enumLines) (declarations m) (constants m) := by
  have hstructs : Declares (m.structs.flatMap structLines)
      (m.structs.map fun s => .struct s.name) [] := by
    have hnone : m.structs.flatMap (fun _ => []) = ([] : List Constant) := by simp
    exact hnone ▸ .flatMap fun s _ => declares_structLines s
  have henums : Declares (m.enums.flatMap enumLines) (m.enums.map declarationOf) (constants m) :=
    .flatMap fun e _ => declares_enumLines e
  exact (((declares_rootLines m).append (declares_listLines m.descriptor)).append hstructs).append
    henums

theorem resourceLines_eq (m : TypeModel) :
    resourceLines m = header ++ importLines m ++ (rootLines m ++ listLines m.descriptor ++
      m.structs.flatMap structLines ++ m.enums.flatMap enumLines) := by
  simp only [resourceLines, List.append_assoc]

/-- The imports of a file are the lines that open with `use`. -/
theorem filter_isUse_resourceLines (m : TypeModel) :
    (resourceLines m).filter isUse = (usePaths m).map useLine := by
  rw [resourceLines_eq, List.filter_append, List.filter_append,
    (Declares.of_quiet quiet_header).uses, filter_isUse_importLines, (declares_items m).uses,
    List.nil_append, List.append_nil]

/-- A file declares the types of its model once each, in their order, and no others. -/
theorem filter_isDeclaration_resourceLines (m : TypeModel) :
    (resourceLines m).filter isDeclaration = (declarations m).map Declaration.line := by
  rw [resourceLines_eq, List.filter_append, List.filter_append,
    (Declares.of_quiet quiet_header).declarations, filter_isDeclaration_importLines,
    (declares_items m).declarations]
  rfl

/-- A file declares the constants of its enumerations once each, in their order, and no others. -/
theorem filter_isConstant_resourceLines (m : TypeModel) :
    (resourceLines m).filter isConstant = (constants m).map Constant.line := by
  rw [resourceLines_eq, List.filter_append, List.filter_append,
    (Declares.of_quiet quiet_header).constants, filter_isConstant_importLines,
    (declares_items m).constants]
  rfl

/-! ## Imports -/

theorem useLine_mem_resourceLines {m : TypeModel} {path : String} :
    useLine path ∈ resourceLines m ↔ path ∈ usePaths m := by
  have hmem : useLine path ∈ (resourceLines m).filter isUse ↔ useLine path ∈ resourceLines m := by
    rw [List.mem_filter, isUse_useLine, and_iff_left rfl]
  rw [← hmem, filter_isUse_resourceLines]
  exact List.mem_map_of_injective fun _ _ => useLine_injective

@[simp] theorem path_inj {e e' : External} : e.path = e'.path ↔ e = e' := by
  cases e <;> cases e' <;> decide

@[simp] theorem path_ne_mapPath (e : External) : e.path ≠ mapPath := by
  cases e <;> decide

@[simp] theorem path_ne_serdePath (e : External) : e.path ≠ serdePath := by
  cases e <;> decide

@[simp] theorem path_ne_siblingsPath (e : External) : e.path ≠ siblingsPath := by
  cases e <;> decide

theorem mem_usePaths {m : TypeModel} {path : String} :
    path ∈ usePaths m ↔ (m.types.any TypeRef.hasMapping = true ∧ path = mapPath) ∨
      (∃ e ∈ m.imports, e.path = path) ∨ path = serdePath ∨
      (needsSiblings m = true ∧ path = siblingsPath) := by
  simp [usePaths]

theorem externalPath_mem_usePaths {m : TypeModel} {e : External} :
    e.path ∈ usePaths m ↔ e ∈ m.imports := by
  simp [mem_usePaths]

theorem mapPath_mem_usePaths {m : TypeModel} :
    mapPath ∈ usePaths m ↔ m.types.any TypeRef.hasMapping = true := by
  have hserde : mapPath ≠ serdePath := by decide
  have hsiblings : mapPath ≠ siblingsPath := by decide
  simp [mem_usePaths, hserde, hsiblings]

theorem siblingsPath_mem_usePaths {m : TypeModel} :
    siblingsPath ∈ usePaths m ↔ needsSiblings m = true := by
  have hmap : siblingsPath ≠ mapPath := by decide
  have hserde : siblingsPath ≠ serdePath := by decide
  simp [mem_usePaths, hmap, hserde]

end ResourceTypes.Code
