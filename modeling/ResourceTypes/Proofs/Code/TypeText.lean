import Mathlib.Data.List.Nodup
import ResourceTypes.Code.Types
import ResourceTypes.Text.Letters

/-! # The text of a type determines the type

Only the text of a container has an angle bracket, and it begins with words of its own. So the text
tells whether a type is a container and which one, and what is left is the text of its contents. A
name can only be mistaken for a type that has a fixed text.
-/

namespace ResourceTypes

inductive Container
  | sequence
  | mapping
  | optional

namespace Container

def around : Container → TypeRef → TypeRef
  | .sequence, t => .sequence t
  | .mapping, t => .mapping t
  | .optional, t => .optional t

def lead : Container → String
  | .sequence => "Vec<"
  | .mapping => "BTreeMap<String, "
  | .optional => "Option<"

/-- What a text begins with tells the container apart from the others. -/
theorem lead_append_inj {c d : Container} {s t : String} (h : c.lead ++ s = d.lead ++ t) :
    c = d ∧ s = t := by
  have hchars := congrArg String.toList h
  rw [String.toList_append, String.toList_append] at hchars
  have hlead : c.lead.toList.head? = d.lead.toList.head? := by
    have hhead := congrArg List.head? hchars
    cases c <;> cases d <;> exact hhead
  obtain rfl : c = d := by
    cases c <;> cases d <;> first | rfl | exact absurd hlead (by decide)
  exact ⟨rfl, String.toList_inj.mp (List.append_cancel_left hchars)⟩

end Container

namespace TypeRef

/-- The types that hold neither a name nor another type. -/
def builtin : List TypeRef :=
  [.str, .i32, .i64, .f32, .f64, .bool, .any] ++ External.all.map .external

/-- A type is built in, or a name, or a container around another type. -/
@[elab_as_elim]
theorem form_induction {motive : TypeRef → Prop} (builtin : ∀ t ∈ builtin, motive t)
    (named : ∀ name, motive (.named name))
    (around : ∀ (container : Container) t, motive t → motive (container.around t))
    (t : TypeRef) : motive t := by
  induction t with
  | external e => exact builtin _ (by cases e <;> decide)
  | named name => exact named name
  | sequence t ih => exact around .sequence t ih
  | mapping t ih => exact around .mapping t ih
  | optional t ih => exact around .optional t ih
  | _ => exact builtin _ (by decide)

end TypeRef

namespace Code

def builtinIdents : List String :=
  ["String", "i32", "i64", "f32", "f64", "bool"] ++ External.all.map External.ident

def isIdentifier (text : String) : Bool :=
  text.toList.all fun c => Text.isAlphanumeric c || c = '_'

/-- Whether the names in a type are identifiers, and none is the text of a built-in type. -/
def NamesApart (t : TypeRef) : Prop :=
  ∀ name ∈ t.names, isIdentifier name = true ∧ name ∉ builtinIdents

theorem namesApart_named {name : String} :
    NamesApart (.named name) ↔ isIdentifier name = true ∧ name ∉ builtinIdents :=
  List.forall_mem_singleton

theorem namesApart_around {container : Container} {t : TypeRef} :
    NamesApart (container.around t) ↔ NamesApart t := by
  cases container <;> rfl

/-! ## The texts of the three forms -/

theorem typeText_around (container : Container) (t : TypeRef) :
    typeText (container.around t) = container.lead ++ (typeText t ++ ">") := by
  cases container <;> exact String.append_assoc

theorem typeText_builtin_inj {t u : TypeRef} (ht : t ∈ TypeRef.builtin) (hu : u ∈ TypeRef.builtin)
    (h : typeText t = typeText u) : t = u := by
  have hnodup : (TypeRef.builtin.map typeText).Nodup := by decide
  exact List.inj_on_of_nodup_map hnodup ht hu h

/-- The only built-in type whose text is no identifier is the opaque value. -/
theorem builtin_text {t : TypeRef} (h : t ∈ TypeRef.builtin) :
    typeText t ∈ builtinIdents ∨ isIdentifier (typeText t) = false := by
  revert t
  decide

theorem builtin_ne_named {t : TypeRef} (ht : t ∈ TypeRef.builtin) {name : String}
    (hname : NamesApart (.named name)) : typeText t ≠ name := by
  rintro rfl
  obtain ⟨hident, hother⟩ := namesApart_named.mp hname
  rcases builtin_text ht with hmem | hno
  · exact hother hmem
  · rw [hno] at hident
    cases hident

/-! ## Angle brackets -/

theorem bracket_mem_around (container : Container) (t : TypeRef) :
    '<' ∈ (typeText (container.around t)).toList := by
  rw [typeText_around, String.toList_append]
  exact List.mem_append_left _ (by cases container <;> decide)

theorem bracket_not_mem_builtin {t : TypeRef} (ht : t ∈ TypeRef.builtin) :
    '<' ∉ (typeText t).toList := by
  revert t
  decide

theorem bracket_not_mem_identifier {name : String} (h : isIdentifier name = true) :
    '<' ∉ name.toList := by
  intro hmem
  have hbracket := List.all_eq_true.mp h '<' hmem
  revert hbracket
  decide

theorem around_ne_builtin (container : Container) (content : TypeRef) {t : TypeRef}
    (ht : t ∈ TypeRef.builtin) : typeText (container.around content) ≠ typeText t := fun h =>
  bracket_not_mem_builtin ht (h ▸ bracket_mem_around container content)

theorem around_ne_named (container : Container) (content : TypeRef) {name : String}
    (hname : NamesApart (.named name)) : typeText (container.around content) ≠ name := by
  intro h
  have hmem := bracket_mem_around container content
  rw [h] at hmem
  exact bracket_not_mem_identifier (namesApart_named.mp hname).1 hmem

theorem typeText_around_inj {c d : Container} {t u : TypeRef}
    (h : typeText (c.around t) = typeText (d.around u)) : c = d ∧ typeText t = typeText u := by
  rw [typeText_around, typeText_around] at h
  obtain ⟨hc, hrest⟩ := Container.lead_append_inj h
  have hchars := congrArg String.toList hrest
  rw [String.toList_append, String.toList_append] at hchars
  exact ⟨hc, String.toList_inj.mp (List.append_cancel_right hchars)⟩

/-! ## All types -/

/-- Two types whose names are identifiers apart from the built-in ones have one text just when they
are equal. -/
theorem typeText_eq_iff {t u : TypeRef} (ht : NamesApart t) (hu : NamesApart u) :
    typeText t = typeText u ↔ t = u := by
  refine ⟨fun h => ?_, fun h => h ▸ rfl⟩
  induction t using TypeRef.form_induction generalizing u with
  | builtin t hb =>
      induction u using TypeRef.form_induction with
      | builtin u hb' => exact typeText_builtin_inj hb hb' h
      | named name => exact absurd h (builtin_ne_named hb hu)
      | around d u _ => exact absurd h.symm (around_ne_builtin d u hb)
  | named name =>
      induction u using TypeRef.form_induction with
      | builtin u hb' => exact absurd h.symm (builtin_ne_named hb' ht)
      | named name' => exact congrArg TypeRef.named h
      | around d u _ => exact absurd h.symm (around_ne_named d u ht)
  | around c t ih =>
      induction u using TypeRef.form_induction with
      | builtin u hb' => exact absurd h (around_ne_builtin c t hb')
      | named name' => exact absurd h (around_ne_named c t hu)
      | around d u _ =>
          obtain ⟨rfl, hcontent⟩ := typeText_around_inj h
          rw [ih (namesApart_around.mp ht) (namesApart_around.mp hu) hcontent]

/-- The names of containers are no built-in identifiers, and still no two texts meet. -/
theorem containerNames_text :
    NamesApart (.sequence (.named "Option")) ∧ NamesApart (.sequence (.optional (.named "Vec"))) ∧
      typeText (.sequence (.named "Option")) ≠ typeText (.sequence (.optional (.named "Vec"))) := by
  have hname : NamesApart (.sequence (.named "Option")) := by
    unfold NamesApart
    decide
  have hcontainer : NamesApart (.sequence (.optional (.named "Vec"))) := by
    unfold NamesApart
    decide
  exact ⟨hname, hcontainer, fun h => absurd ((typeText_eq_iff hname hcontainer).mp h) (by decide)⟩

end Code

end ResourceTypes
