import Mathlib.Data.Set.Function
import ResourceTypes.Proofs.Lowering.Outcome

/-! # The same shapes under other names

Two memos that name the same shapes lead to the same types up to their names. Only the types of
references have to be told apart: the name that a reference asks for is its own, even where a shape
happens to have that name as well.
-/

namespace ResourceTypes

/-! ## Renaming -/

def TypeRef.rename (rename : String → String) : TypeRef → TypeRef
  | .named name => .named (rename name)
  | .sequence t => .sequence (t.rename rename)
  | .mapping t => .mapping (t.rename rename)
  | .optional t => .optional (t.rename rename)
  | t => t

theorem TypeRef.rename_of_no_names (rename : String → String) {t : TypeRef} (h : t.names = []) :
    t.rename rename = t := by
  induction t with
  | named name => simp [names] at h
  | sequence t ih => exact congrArg _ (ih h)
  | mapping t ih => exact congrArg _ (ih h)
  | optional t ih => exact congrArg _ (ih h)
  | _ => rfl

theorem TypeRef.orNone_rename (rename : String → String) (t : TypeRef) :
    t.orNone.rename rename = (t.rename rename).orNone := by
  cases t <;> rfl

theorem TypeRef.relax_rename (rename : String → String) (t : TypeRef) :
    t.relax.rename rename = (t.rename rename).relax := by
  cases t with
  | sequence t => exact congrArg _ (orNone_rename rename t)
  | mapping t => exact congrArg _ (orNone_rename rename t)
  | _ => rfl

mutual

/-- Whether the type of a schema is, below lists and maps, the one that a reference asks for. -/
def Schema.isReference : Schema → Bool
  | .mk _ shape => shape.isReference

def Shape.isReference : Shape → Bool
  | .ref _ => true
  | .array (some item) => item.isReference
  | .object properties (some value) _ =>
    !isCondition properties && properties.isEmpty && value.isReference
  | _ => false

end

theorem Shape.isReference_mapping {properties : List (String × Schema)} {value : Schema}
    {preserveUnknown : Bool} (hc : ¬isCondition properties = true)
    (he : properties.isEmpty = true) :
    (Shape.object properties (some value) preserveUnknown).isReference = value.isReference := by
  simp [isReference, hc, he]

/-- A condition and a structure have types of their own. -/
theorem Shape.isReference_of_not_mapping {properties : List (String × Schema)}
    {additional : Option Schema} {preserveUnknown : Bool}
    (h : isCondition properties = true ∨ ¬properties.isEmpty = true) :
    (Shape.object properties additional preserveUnknown).isReference = false := by
  cases additional with
  | none => rfl
  | some value => rcases h with h | h <;> simp [isReference, h]

def Schema.referenceKeys (properties : List (String × Schema)) : List String :=
  (properties.filter (·.2.isReference)).map (·.1)

/-- The field with other names in its type, unless it has a key whose type stays as it is. -/
def Field.rename (rename : String → String) (kept : List String) (field : Field) : Field :=
  if field.jsonKey ∈ kept then field
  else { field with type := field.type.rename rename, enumRef := field.enumRef.map rename }

theorem Schema.mem_referenceKeys {properties : List (String × Schema)}
    (hd : (properties.map (·.1)).Nodup) {property : String × Schema} (hp : property ∈ properties) :
    property.1 ∈ referenceKeys properties ↔ property.2.isReference = true := by
  constructor
  · intro hm
    obtain ⟨other, hother, hkey⟩ := List.mem_map.mp hm
    obtain ⟨hmem, href⟩ := List.mem_filter.mp hother
    rwa [Keyed.eq_of_mem_of_nodup hd hp hmem hkey.symm]
  · intro href
    exact List.mem_map_of_mem (List.mem_filter.mpr ⟨hp, href⟩)

namespace Field

variable {rename : String → String} {kept : List String}

@[simp] theorem rename_name (field : Field) : (field.rename rename kept).name = field.name := by
  unfold Field.rename
  split <;> rfl

@[simp] theorem rename_jsonKey (field : Field) :
    (field.rename rename kept).jsonKey = field.jsonKey := by
  unfold Field.rename
  split <;> rfl

theorem relax_rename (field : Field) :
    Field.rename rename kept { field with type := field.type.relax } =
      { field.rename rename kept with type := (field.rename rename kept).type.relax } := by
  unfold Field.rename
  split
  · rfl
  · simp only [TypeRef.relax_rename]

end Field

theorem Lowering.sortFields_rename (rename : String → String) (kept : List String)
    (fields : List Field) :
    sortFields (fields.map (Field.rename rename kept)) =
      (sortFields fields).map (Field.rename rename kept) := by
  refine (List.map_mergeSort fun a _ b _ => ?_).symm
  simp [fieldBefore]

/-! ## Memos that name the same shapes -/

/-- Whether another memo has all names of this one in another form. -/
def Memo.Renames (memo : Memo) (rename : String → String) (other : Memo) : Prop :=
  ∀ signature name, memo signature = some name → other signature = some (rename name)

def Memo.Injective (memo : Memo) : Prop :=
  ∀ {x y name}, memo x = some name → memo y = some name → x = y

namespace Memo

variable {memo other : Memo} {rename : String → String}

theorem exists_renames (hi : memo.Injective)
    (h : ∀ signature name, memo signature = some name → ∃ name', other signature = some name') :
    ∃ rename, memo.Renames rename other := by
  have himage : ∀ name, ∃ name', ∀ signature, memo signature = some name →
      other signature = some name' := by
    intro name
    by_cases hn : ∃ signature, memo signature = some name
    · obtain ⟨signature, hs⟩ := hn
      obtain ⟨name', hs'⟩ := h signature name hs
      exact ⟨name', fun x hx => hi hx hs ▸ hs'⟩
    · exact ⟨name, fun signature hs => (hn ⟨signature, hs⟩).elim⟩
  choose rename hr using himage
  exact ⟨rename, fun signature name hs => hr name signature hs⟩

/-- The names of shapes that both memos know correspond one to one. -/
theorem Renames.bijOn (h : memo.Renames rename other) (hi : other.Injective)
    {signatures : Set Signature} (hs : ∀ x ∈ signatures, ∃ name, memo x = some name) :
    Set.BijOn rename {name | ∃ x ∈ signatures, memo x = some name}
      {name | ∃ x ∈ signatures, other x = some name} := by
  refine ⟨?_, ?_, ?_⟩
  · rintro name ⟨x, hx, hm⟩
    exact ⟨x, hx, h x name hm⟩
  · rintro name ⟨x, -, hm⟩ name' ⟨y, -, hm'⟩ he
    have hxy : x = y := hi (h x name hm) (he ▸ h y name' hm')
    exact Option.some.inj (hm.symm.trans (hxy ▸ hm'))
  · rintro name' ⟨x, hx, hm'⟩
    obtain ⟨name, hm⟩ := hs x hx
    exact ⟨name, ⟨x, hx, hm⟩, Option.some.inj ((h x name hm).symm.trans hm')⟩

end Memo

/-! ## Translations -/

namespace Lowering

def Lowered.rename (rename : String → String) (kept : Bool) (lowered : Lowered) : Lowered :=
  if kept then lowered else ⟨lowered.type.rename rename, lowered.enumRef.map rename⟩

section

variable {memo other : Memo} {rename : String → String}

theorem Lowered.rename_plain {type : TypeRef} (h : type.names = []) :
    (Lowered.plain type).rename rename false = .plain type := by
  simp [Lowered.rename, Lowered.plain, TypeRef.rename_of_no_names rename h]

theorem Lowered.wrap_rename (container : TypeRef → TypeRef)
    (h : ∀ t, (container t).rename rename = container (t.rename rename)) (kept : Bool)
    (lowered : Lowered) :
    (lowered.rename rename kept).wrap container = (lowered.wrap container).rename rename kept := by
  cases kept with
  | true => rfl
  | false => simp only [Lowered.rename, Lowered.wrap, Bool.false_eq_true, if_false, h]

mutual

/-- What is translated by the one memo is translated by the other one, with other names. -/
theorem translate_rename (h : memo.Renames rename other) (key : String) :
    ∀ (schema : Schema) {lowered : Lowered}, translate memo key schema = some lowered →
      translate other key schema = some (lowered.rename rename schema.isReference)
  | .mk description shape, lowered, ht => by
      rw [translate] at ht ⊢
      exact translateShape_rename h key shape ht

theorem translateShape_rename (h : memo.Renames rename other) (key : String) :
    ∀ (shape : Shape) {lowered : Lowered}, translateShape memo key shape = some lowered →
      translateShape other key shape = some (lowered.rename rename shape.isReference)
  | .scalar kind format, lowered, ht => by
      cases ht
      exact congrArg some (Lowered.rename_plain (scalarType_names kind format)).symm
  | .enum kind format literals, lowered, ht => by
      rw [translateShape] at ht ⊢
      obtain ⟨name, hm, rfl⟩ := Option.map_eq_some_iff.mp ht
      rw [h _ _ hm]
      rfl
  | .object properties additional preserveUnknown, lowered, ht => by
      by_cases hc : isCondition properties = true
      · rw [translateShape_condition hc] at ht ⊢
        cases ht
        rw [Shape.isReference_of_not_mapping (.inl hc), Lowered.rename_plain rfl]
      by_cases he : properties.isEmpty = true
      · cases additional with
        | none =>
            rw [translateShape_bare hc he] at ht ⊢
            cases ht
            exact congrArg some (Lowered.rename_plain (bareObjectType_names key _)).symm
        | some value =>
            rw [translateShape_mapping hc he] at ht ⊢
            obtain ⟨inner, hi, rfl⟩ := Option.map_eq_some_iff.mp ht
            rw [translate_rename h key value hi, Shape.isReference_mapping hc he]
            exact congrArg some (Lowered.wrap_rename .mapping (fun _ => rfl) _ inner)
      · rw [translateShape_struct hc he] at ht ⊢
        obtain ⟨name, hm, rfl⟩ := Option.map_eq_some_iff.mp ht
        rw [h _ _ hm, Shape.isReference_of_not_mapping (.inr he)]
        rfl
  | .array none, lowered, ht => by
      cases ht
      exact congrArg some (Lowered.rename_plain rfl).symm
  | .array (some schema), lowered, ht => by
      rw [translateShape] at ht ⊢
      obtain ⟨inner, hi, rfl⟩ := Option.map_eq_some_iff.mp ht
      rw [translate_rename h key schema hi]
      exact congrArg some (Lowered.wrap_rename .sequence (fun _ => rfl) _ inner)
  | .ref pointer, lowered, ht => by
      cases ht
      rfl
  | .intOrString, lowered, ht => by
      cases ht
      exact congrArg some (Lowered.rename_plain rfl).symm
  | .untyped, lowered, ht => by
      cases ht
      exact congrArg some (Lowered.rename_plain rfl).symm

end

theorem translateField_rename (h : memo.Renames rename other) {property : String × Schema}
    {field : Field} {kept : List String} (hk : property.1 ∈ kept ↔ property.2.isReference = true)
    (ht : translateField memo property = some field) :
    translateField other property = some (field.rename rename kept) := by
  obtain ⟨lowered, hl, rfl⟩ := Option.map_eq_some_iff.mp ht
  rw [translateField, translate_rename h property.1 property.2 hl, Option.map_some, Field.rename]
  by_cases href : property.2.isReference = true
  · rw [if_pos (hk.mpr href), href]
    rfl
  · rw [if_neg (mt hk.mp href), eq_false_of_ne_true href]
    rfl

theorem Translates.renamed (h : memo.Renames rename other) {properties : List (String × Schema)}
    {fields : List Field} (ht : Translates memo properties fields)
    (hd : (properties.map (·.1)).Nodup) :
    Translates other properties
      (fields.map (Field.rename rename (Schema.referenceKeys properties))) := by
  rw [Translates, List.forall₂_map_right_iff]
  refine List.forall₂_iff_zip.mpr ⟨ht.length_eq, fun {property field} hz => ?_⟩
  have hp := (List.of_mem_zip hz).1
  exact translateField_rename h (Schema.mem_referenceKeys hd hp) (List.forall₂_zip ht hz)

theorem Translates.unique {properties : List (String × Schema)} {fields others : List Field}
    (h : Translates memo properties fields) (ho : Translates memo properties others) :
    fields = others := by
  induction h generalizing others with
  | nil =>
      cases ho
      rfl
  | cons hf _ ih =>
      cases ho with
      | cons hf' ho => rw [Option.some.inj (hf.symm.trans hf'), ih ho]

/-- The sorted fields of the same properties, under either memo. -/
theorem Translates.sortFields_eq (h : memo.Renames rename other)
    {properties : List (String × Schema)} {fields others : List Field}
    (ht : Translates memo properties fields) (ho : Translates other properties others)
    (hd : (properties.map (·.1)).Nodup) :
    sortFields others =
      (sortFields fields).map (Field.rename rename (Schema.referenceKeys properties)) := by
  rw [ho.unique (ht.renamed h hd), sortFields_rename]

end

end Lowering

end ResourceTypes
