import ResourceTypes.Naming.Signature
import ResourceTypes.Proofs.Json.Canonical
import ResourceTypes.Proofs.Schema.Text

/-! # What a signature is the digest of

The text of properties determines the properties, the text of literals determines their set up to
the order of keys, and no text is of both sorts.
-/

namespace ResourceTypes

/-- Lists that hold the same values up to the order of keys, however often and in whatever order. -/
def Json.SameSet (xs ys : List Json) : Prop :=
  (∀ v ∈ xs, ∃ w ∈ ys, Same v w) ∧ ∀ w ∈ ys, ∃ v ∈ xs, Same w v

theorem Json.SameSet.of_subset {xs ys : List Json} (hxy : xs ⊆ ys) (hyx : ys ⊆ xs) :
    SameSet xs ys :=
  ⟨fun v hv => ⟨v, hxy hv, .refl v⟩, fun w hw => ⟨w, hyx hw, .refl w⟩⟩

/-- Values that are the same up to the order of keys are of one sort. -/
theorem Json.Same.rank_eq {v w : Json} (h : Same v w) : v.rank = w.rank := by
  cases h <;> rfl

/-- The canonical text tells just what a value is up to the order of keys. -/
theorem Json.canonical_text_eq_iff {v w : Json} (hv : v.UniqueKeys) :
    v.canonical.text = w.canonical.text ↔ Same v w := by
  rw [← canonical_eq_iff hv]
  constructor
  · intro h
    exact text_injective h
  · intro h
    rw [h]

namespace Signature

theorem propertyToJson_injective {a b : String × Schema}
    (h : propertyToJson a = propertyToJson b) : a = b := by
  simp only [propertyToJson, Json.obj.injEq, List.cons.injEq, Prod.mk.injEq, Json.str.injEq,
    true_and, and_true] at h
  exact Prod.ext h.1 (Schema.toJson_injective h.2)

theorem propertiesText_eq (properties : List (String × Schema)) :
    propertiesText properties = 's' :: 't' :: 'r' :: 'u' :: 'c' :: 't' :: '\x00' ::
      Json.chars (.arr ((Keyed.sort properties).map propertyToJson)) := by
  delta propertiesText
  simp

theorem literalsText_eq (literals : List Json) :
    literalsText literals = 'e' :: 'n' :: 'u' :: 'm' :: '\x00' ::
      Json.chars (Json.strings (literalTexts literals)) := by
  delta literalsText
  simp

theorem propertiesText_ne_literalsText (properties : List (String × Schema))
    (literals : List Json) : propertiesText properties ≠ literalsText literals := by
  rw [propertiesText_eq, literalsText_eq]
  simp

theorem sort_eq_of_propertiesText {ps qs : List (String × Schema)}
    (h : propertiesText ps = propertiesText qs) : Keyed.sort ps = Keyed.sort qs := by
  simp only [propertiesText_eq, List.cons.injEq, true_and] at h
  have hj := Json.arr.inj (Json.chars_injective h)
  exact List.map_injective_iff.mpr (fun _ _ => propertyToJson_injective) hj

/-- The text of properties that are sorted by key determines them. -/
theorem propertiesText_inj {ps qs : List (String × Schema)} (hp : Keyed.Sorted ps)
    (hq : Keyed.Sorted qs) : propertiesText ps = propertiesText qs ↔ ps = qs := by
  constructor
  · intro h
    have hs := sort_eq_of_propertiesText h
    rwa [Keyed.sort_of_sorted hp, Keyed.sort_of_sorted hq] at hs
  · intro h
    rw [h]

theorem literalsText_eq_iff_texts {xs ys : List Json} :
    literalsText xs = literalsText ys ↔ literalTexts xs = literalTexts ys := by
  constructor
  · intro h
    simp only [literalsText_eq, List.cons.injEq, true_and] at h
    have hj := Json.arr.inj (Json.chars_injective h)
    exact List.map_injective_iff.mpr (fun _ _ => Json.str.inj) hj
  · intro h
    rw [literalsText_eq, literalsText_eq, h]

theorem mem_texts_iff {v : Json} {ys : List Json} (hv : v.UniqueKeys) :
    v.canonical.text ∈ ys.map (fun w => w.canonical.text) ↔ ∃ w ∈ ys, Json.Same v w := by
  rw [List.mem_map]
  constructor
  · rintro ⟨w, hw, ht⟩
    exact ⟨w, hw, (Json.canonical_text_eq_iff hv).mp ht.symm⟩
  · rintro ⟨w, hw, hs⟩
    exact ⟨w, hw, ((Json.canonical_text_eq_iff hv).mpr hs).symm⟩

/-- The text of literals tells just their set up to the order of keys. -/
theorem literalsText_eq_iff {xs ys : List Json} (hx : ∀ v ∈ xs, v.UniqueKeys)
    (hy : ∀ w ∈ ys, w.UniqueKeys) :
    literalsText xs = literalsText ys ↔ Json.SameSet xs ys := by
  rw [literalsText_eq_iff_texts]
  change sortedNames _ = sortedNames _ ↔ _
  rw [sortedNames_eq_iff]
  constructor
  · intro h
    refine ⟨fun v hv => ?_, fun w hw => ?_⟩
    · exact (mem_texts_iff (hx v hv)).mp ((h _).mp (List.mem_map_of_mem hv))
    · exact (mem_texts_iff (hy w hw)).mp ((h _).mpr (List.mem_map_of_mem hw))
  · rintro ⟨hxy, hyx⟩ text
    constructor
    · intro ht
      obtain ⟨v, hv, rfl⟩ := List.mem_map.mp ht
      exact (mem_texts_iff (hx v hv)).mpr (hxy v hv)
    · intro ht
      obtain ⟨w, hw, rfl⟩ := List.mem_map.mp ht
      exact (mem_texts_iff (hy w hw)).mpr (hyx w hw)

end Signature

end ResourceTypes
