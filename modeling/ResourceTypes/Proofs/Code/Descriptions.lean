import ResourceTypes.Proofs.Code.Plan

/-! # Descriptions stay documentation

A description is written as lines of documentation and nowhere else. Files of models that differ in
their descriptions alone are the same text once documentation is left out, whatever the descriptions
hold: a line break in one of them begins a further line of documentation, and all other characters
stay behind the slashes.
-/

namespace ResourceTypes

/-! ## Models without descriptions -/

def Field.undescribed (field : Field) : Field :=
  { field with description := none }

def StructType.undescribed (s : StructType) : StructType :=
  { s with description := "", fields := s.fields.map Field.undescribed }

def EnumType.undescribed (e : EnumType) : EnumType :=
  { e with description := "" }

def TypeModel.undescribed (m : TypeModel) : TypeModel :=
  { m with
    root := m.root.undescribed
    structs := m.structs.map StructType.undescribed
    enums := m.enums.map EnumType.undescribed }

theorem TypeModel.undescribed_types (m : TypeModel) : m.undescribed.types = m.types := by
  have hstruct : ∀ s : StructType, s.undescribed.fields.map (·.type) = s.fields.map (·.type) :=
    fun s => List.map_map
  have hfields : m.undescribed.fields.map (·.type) = m.fields.map (·.type) := by
    simp only [fields, undescribed, List.flatMap_cons, List.map_append, List.map_flatMap,
      List.flatMap_map, hstruct]
  have henums : m.undescribed.enums.map (·.base) = m.enums.map (·.base) := List.map_map
  rw [types, types, hfields, henums]

theorem TypeModel.undescribed_definedNames (m : TypeModel) :
    m.undescribed.definedNames = m.definedNames := by
  simp only [definedNames, undescribed, List.map_map]
  rfl

/-! ## Lists with insertions -/

/-- The second list is the first one with members of a kind inserted. -/
inductive Inserts {α : Type} (P : α → Prop) : List α → List α → Prop
  | nil : Inserts P [] []
  | keep {l l' : List α} (a : α) (h : Inserts P l l') : Inserts P (a :: l) (a :: l')
  | insert {l l' : List α} {a : α} (ha : P a) (h : Inserts P l l') : Inserts P l (a :: l')

namespace Inserts

variable {α β : Type} {P : α → Prop} {l l' more more' : List α}

theorem refl (l : List α) : Inserts P l l := by
  induction l with
  | nil => exact .nil
  | cons a l ih => exact .keep a ih

theorem of_forall (h : ∀ a ∈ more, P a) : Inserts P [] more := by
  induction more with
  | nil => exact .nil
  | cons a more ih =>
      obtain ⟨ha, hmore⟩ := List.forall_mem_cons.mp h
      exact .insert ha (ih hmore)

theorem append (h : Inserts P l l') (h' : Inserts P more more') :
    Inserts P (l ++ more) (l' ++ more') := by
  induction h with
  | nil => exact h'
  | keep a _ ih => exact .keep a ih
  | insert ha _ ih => exact .insert ha ih

theorem flatMap {f g : β → List α} {bs : List β} (h : ∀ b ∈ bs, Inserts P (f b) (g b)) :
    Inserts P (bs.flatMap f) (bs.flatMap g) := by
  induction bs with
  | nil => exact .nil
  | cons b bs ih =>
      obtain ⟨hb, hbs⟩ := List.forall_mem_cons.mp h
      exact hb.append (ih hbs)

/-- What is left without members of the kind is the same. -/
theorem filter_eq {p : α → Bool} (h : Inserts (p · = true) l l') :
    l'.filter (!p ·) = l.filter (!p ·) := by
  induction h with
  | nil => rfl
  | keep a _ ih => rw [List.filter_cons, List.filter_cons, ih]
  | insert ha _ ih => rw [List.filter_cons_of_neg (by simp [ha]), ih]

end Inserts

namespace Code

/-! ## Lines of documentation -/

/-- Whether the first characters of a line that are not spaces are three slashes. -/
def isDocumentation (l : String) : Bool :=
  "///".toList.isPrefixOf (l.toList.dropWhile (· = ' '))

def withoutDocumentation (contents : String) : String :=
  "\n".intercalate ((linesOf contents).filter (!isDocumentation ·))

/-- Whether what is written at once is one line of documentation. -/
structure Documents (l : String) : Prop where
  documentation : isDocumentation l = true
  single : Unbroken l

/-- What is inserted into the written lines is inserted into those of the text. -/
theorem inserts_linesOf {lines lines' : Lines} (h : Inserts Documents lines lines') :
    Inserts (isDocumentation · = true) (linesOf (textOf lines)) (linesOf (textOf lines')) := by
  rw [linesOf_textOf_eq, linesOf_textOf_eq]
  refine .append ?_ (.refl _)
  induction h with
  | nil => exact .nil
  | keep l _ ih => exact .append (.refl _) ih
  | insert hl _ ih =>
      rw [List.flatMap_cons, linesOf_of_unbroken hl.single]
      exact .insert hl.documentation ih

theorem isDocumentation_line (depth : Nat) (rest : String) :
    isDocumentation (line depth ("///" ++ rest)) = true := by
  have hchars : (line depth ("///" ++ rest)).toList =
      List.replicate (4 * depth) ' ' ++ '/' :: '/' :: '/' :: rest.toList := by
    simp [line]
  rw [isDocumentation, hchars, List.dropWhile_append_of_pos (by simp)]
  simp

theorem isDocumentation_docLine (depth : Nat) (text : List Char) :
    isDocumentation (docLine depth text) = true := by
  unfold docLine
  split
  · exact isDocumentation_line depth ""
  · have hspace : "/// " = "///" ++ " " := by decide
    rw [hspace, String.append_assoc]
    exact isDocumentation_line depth _

theorem documents_doc (depth : Nat) (description : String) :
    ∀ l ∈ doc depth description, Documents l := by
  intro l hl
  have hdoc : ∀ l ∈ doc depth description, isDocumentation l = true :=
    forall_mem_doc (isDocumentation_docLine depth) description
  exact ⟨hdoc l hl, unbroken_doc depth description l hl⟩

/-! ## Items -/

theorem inserts_doc (depth : Nat) (description : String) :
    Inserts Documents (doc depth "") (doc depth description) :=
  .of_forall (documents_doc depth description)

theorem inserts_fieldLines (ident : String) (field : Field) :
    Inserts Documents (fieldLines ident field.undescribed) (fieldLines ident field) := by
  unfold fieldLines
  refine .append (?_ : Inserts Documents [] _) (.refl _)
  split
  · exact inserts_doc 1 _
  · exact .nil

/-- The identifiers of fields come from their keys alone. -/
theorem inserts_fieldsLines (taken : List String) (fields : List Field) :
    Inserts Documents (fieldsLines taken (fields.map Field.undescribed))
      (fieldsLines taken fields) := by
  have hkeys : (fields.map Field.undescribed).map (·.jsonKey) = fields.map (·.jsonKey) :=
    List.map_map
  rw [fieldsLines, fieldsLines, hkeys, List.zip_map_right, List.flatMap_map]
  exact .flatMap fun pair _ => inserts_fieldLines pair.1 pair.2

theorem inserts_structLines (s : StructType) :
    Inserts Documents (structLines s.undescribed) (structLines s) :=
  (((inserts_doc 0 s.description).append (.refl _)).append
    (inserts_fieldsLines [] s.fields)).append (.refl _)

theorem inserts_rootLines (m : TypeModel) :
    Inserts Documents (rootLines m.undescribed) (rootLines m) :=
  (((((inserts_doc 0 m.root.description).append (.refl _)).append (.refl _)).append
    (.refl _)).append (inserts_fieldsLines rootIdents m.root.fields)).append (.refl _)

theorem inserts_enumLines (e : EnumType) :
    Inserts Documents (enumLines e.undescribed) (enumLines e) :=
  (inserts_doc 0 e.description).append (.refl _)

theorem importLines_undescribed (m : TypeModel) : importLines m.undescribed = importLines m := by
  simp only [importLines, needsSiblings, m.undescribed_types, m.undescribed_definedNames]
  rfl

/-- The file of a model is the file that it has without descriptions, with lines of documentation
inserted. -/
theorem inserts_resourceLines (m : TypeModel) :
    Inserts Documents (resourceLines m.undescribed) (resourceLines m) := by
  have hstructs : Inserts Documents (m.undescribed.structs.flatMap structLines)
      (m.structs.flatMap structLines) := by
    rw [TypeModel.undescribed, List.flatMap_map]
    exact .flatMap fun s _ => inserts_structLines s
  have henums : Inserts Documents (m.undescribed.enums.flatMap enumLines)
      (m.enums.flatMap enumLines) := by
    rw [TypeModel.undescribed, List.flatMap_map]
    exact .flatMap fun e _ => inserts_enumLines e
  rw [resourceLines, resourceLines, importLines_undescribed]
  exact ((((Inserts.refl _).append (inserts_rootLines m)).append (.refl _)).append hstructs).append
    henums

/-! ## Texts -/

/-- Models that differ in their descriptions alone have the same file but for documentation, and
whatever is written for a description is a line of documentation. -/
theorem descriptions_stay_documentation {m m' : TypeModel} (h : m.undescribed = m'.undescribed) :
    withoutDocumentation (textOf (resourceLines m)) =
        withoutDocumentation (textOf (resourceLines m')) ∧
      Inserts (isDocumentation · = true) (linesOf (textOf (resourceLines m.undescribed)))
        (linesOf (textOf (resourceLines m))) := by
  have hbare : ∀ m : TypeModel, withoutDocumentation (textOf (resourceLines m)) =
      withoutDocumentation (textOf (resourceLines m.undescribed)) := fun m => by
    rw [withoutDocumentation, withoutDocumentation,
      (inserts_linesOf (inserts_resourceLines m)).filter_eq]
  exact ⟨by rw [hbare m, hbare m', h], inserts_linesOf (inserts_resourceLines m)⟩

def describedStruct (name : String) (isRoot : Bool) (description : String) : StructType :=
  ⟨name, "", [⟨"size", "size", .i64, some description, none⟩], description, isRoot⟩

def describedModel (description : String) : TypeModel :=
  { descriptor := ⟨"Widget", "widgets", "WidgetList", "shop.io", "v1"⟩
    root := describedStruct "Widget" true description
    structs := [describedStruct "WidgetSpec" false description]
    enums := [⟨"Mode", .str, description, [⟨"ModeFast", .str "fast"⟩]⟩]
    imports := [.objectMeta, .listMeta]
    refs := [] }

/-- A description that begins with slashes and has line breaks, an end of a comment, quotes and an
item in it. -/
def unrulyDescription : String :=
  "/ first\n\n*/ \"last\"\r\npub struct Other \x7b"

theorem unrulyDescription_stays_documentation :
    (describedModel unrulyDescription).undescribed = (describedModel "").undescribed ∧
      withoutDocumentation (textOf (resourceLines (describedModel unrulyDescription))) =
        withoutDocumentation (textOf (resourceLines (describedModel ""))) ∧
      Inserts (isDocumentation · = true)
        (linesOf (textOf (resourceLines (describedModel unrulyDescription).undescribed)))
        (linesOf (textOf (resourceLines (describedModel unrulyDescription)))) := by
  have hsame :
      (describedModel unrulyDescription).undescribed = (describedModel "").undescribed := rfl
  exact ⟨hsame, descriptions_stay_documentation hsame⟩

end Code

end ResourceTypes
