import ResourceTypes.Proofs.Json.Text
import ResourceTypes.Schema.Basic

/-! # The JSON form of a schema determines the schema

Every shape names itself, writes all its parts, and writes an absent part as null, which no schema
is. So nothing is lost at any depth.
-/

namespace ResourceTypes

theorem Json.ofOption_injective {s t : Option String} (h : Json.ofOption s = Json.ofOption t) :
    s = t := by
  cases s <;> cases t <;> simp_all [Json.ofOption]

theorem ScalarKind.toJson_injective {a b : ScalarKind} (h : a.toJson = b.toJson) : a = b := by
  cases a <;> cases b <;> simp_all [ScalarKind.toJson]

theorem Schema.toJson_ne_null (s : Schema) : s.toJson ≠ .null := by
  obtain ⟨description, shape⟩ := s
  cases description <;> simp [Schema.toJson]

mutual

theorem Schema.toJson_injective : ∀ {s t : Schema}, s.toJson = t.toJson → s = t
  | .mk none shape, .mk none shape', h => by
      simp only [Schema.toJson, Json.obj.injEq, List.cons.injEq, Prod.mk.injEq, true_and,
        and_true] at h
      rw [Shape.toJson_injective h]
  | .mk none shape, .mk (some description) shape', h => by simp [Schema.toJson] at h
  | .mk (some description) shape, .mk none shape', h => by simp [Schema.toJson] at h
  | .mk (some description) shape, .mk (some description') shape', h => by
      simp only [Schema.toJson, Json.obj.injEq, List.cons.injEq, Prod.mk.injEq, Json.str.injEq,
        true_and, and_true] at h
      rw [h.1, Shape.toJson_injective h.2]

theorem Shape.toJson_injective : ∀ {s t : Shape}, s.toJson = t.toJson → s = t
  | .scalar kind format, t, h => by
      cases t <;> simp [Shape.toJson] at h
      rw [ScalarKind.toJson_injective h.1, Json.ofOption_injective h.2]
  | .enum kind format literals, t, h => by
      cases t <;> simp [Shape.toJson] at h
      rw [ScalarKind.toJson_injective h.1, Json.ofOption_injective h.2.1, h.2.2]
  | .object properties additional preserveUnknown, t, h => by
      cases t <;> simp [Shape.toJson] at h
      rw [Schema.propertiesToJson_injective h.1, Schema.optionToJson_injective h.2.1, h.2.2]
  | .array items, t, h => by
      cases t <;> simp [Shape.toJson] at h
      rw [Schema.optionToJson_injective h]
  | .ref pointer, t, h => by
      cases t <;> simp [Shape.toJson] at h
      rw [h]
  | .intOrString, t, h => by
      cases t <;> simp [Shape.toJson] at h
      rfl
  | .untyped, t, h => by
      cases t <;> simp [Shape.toJson] at h
      rfl

theorem Schema.propertiesToJson_injective : ∀ {ps qs : List (String × Schema)},
    Schema.propertiesToJson ps = Schema.propertiesToJson qs → ps = qs
  | [], qs, h => by
      rcases qs with _ | ⟨⟨l, t⟩, qs⟩
      · rfl
      · simp [Schema.propertiesToJson] at h
  | (k, s) :: ps, qs, h => by
      rcases qs with _ | ⟨⟨l, t⟩, qs⟩
      · simp [Schema.propertiesToJson] at h
      · simp only [Schema.propertiesToJson, List.cons.injEq, Prod.mk.injEq] at h
        rw [h.1.1, Schema.toJson_injective h.1.2, Schema.propertiesToJson_injective h.2]

theorem Schema.optionToJson_injective : ∀ {s t : Option Schema},
    Schema.optionToJson s = Schema.optionToJson t → s = t
  | none, t, h => by
      cases t with
      | none => rfl
      | some t => exact (Schema.toJson_ne_null t (by simpa [Schema.optionToJson] using h.symm)).elim
  | some s, t, h => by
      cases t with
      | none => exact (Schema.toJson_ne_null s (by simpa [Schema.optionToJson] using h)).elim
      | some t =>
          simp only [Schema.optionToJson] at h
          rw [Schema.toJson_injective h]

end

end ResourceTypes
