import ResourceTypes.Code.File
import ResourceTypes.Proofs.Batch.Stages
import ResourceTypes.Proofs.Schema.KeyOrder

/-! # Batches of definitions in which keys are reordered

The schemas of a definition are read before anything is compiled. Where the order of keys is the
only difference, the schemas that are read are equal, so nothing that follows can tell them apart:
neither the models nor the errors, nor the files.
-/

namespace ResourceTypes

open ReadResult

/-- Whether two schemas were read from values that are the same up to the order of keys. -/
def Schema.Reordered (schema other : Schema) : Prop :=
  ∃ (r : Reading) (v w : Json) (fields others : SchemaFields), v.Same w ∧ v.UniqueKeys ∧
    r.schema (.ofJson v) = .ok fields ∧ r.schema (.ofJson w) = .ok others ∧
    schema = fields.toSchema ∧ other = others.toSchema

structure Version.Reordered (version other : Version) : Prop where
  name : version.name = other.name
  served : version.served = other.served
  storage : version.storage = other.storage
  schema : Option.Rel Schema.Reordered version.schema other.schema

/-- Whether two definitions differ in nothing but the order of the keys in their schemas. -/
structure Definition.Reordered (d other : Definition) : Prop where
  kind : d.kind = other.kind
  plural : d.plural = other.plural
  listKind : d.listKind = other.listKind
  group : d.group = other.group
  versions : List.Forall₂ Version.Reordered d.versions other.versions

theorem Schema.Reordered.eq {schema other : Schema} (h : Schema.Reordered schema other) :
    schema = other := by
  obtain ⟨r, v, w, fields, others, hsame, hu, hv, hw, rfl, rfl⟩ := h
  have hagree := hsame.schema_agree hu r
  rw [hv, hw] at hagree
  cases hagree with
  | ok he => exact he

theorem Version.Reordered.eq {version other : Version} (h : Version.Reordered version other) :
    version = other := by
  have hschema : version.schema = other.schema := by
    have hrel := h.schema
    generalize version.schema = schema at hrel ⊢
    generalize other.schema = schema' at hrel ⊢
    cases hrel with
    | none => rfl
    | some hreordered => exact congrArg some hreordered.eq
  cases version
  cases other
  simp only [Version.mk.injEq]
  exact ⟨h.name, h.served, h.storage, hschema⟩

theorem Definition.Reordered.eq {d other : Definition} (h : Definition.Reordered d other) :
    d = other := by
  have hversions : d.versions = other.versions :=
    List.forall₂_eq_eq_eq ▸ h.versions.imp fun _ _ => Version.Reordered.eq
  cases d
  cases other
  simp only [Definition.mk.injEq]
  exact ⟨h.kind, h.plural, h.listKind, h.group, hversions⟩

/-- The order of keys never matters. From values that differ in it alone, either no schema can be
read or one and the same schema is. Definitions whose schemas differ in it alone are therefore
compiled to the same batch with the same files, or refused with the same error. -/
theorem key_order_irrelevant :
    (∀ (r : Reading) (v w : Json), v.Same w → v.UniqueKeys →
      Agree (fun fields others => fields.toSchema = others.toSchema) (r.schema (.ofJson v))
        (r.schema (.ofJson w))) ∧
    ∀ (options : Options) (definitions others : List Definition),
      List.Forall₂ Definition.Reordered definitions others →
        compileBatch options definitions = compileBatch options others ∧
        (compileBatch options definitions).batch.map Code.files =
          (compileBatch options others).batch.map Code.files := by
  refine ⟨fun r v w h hu => h.schema_agree hu r, fun options definitions others h => ?_⟩
  have hdefinitions : definitions = others :=
    List.forall₂_eq_eq_eq ▸ h.imp fun _ _ => Definition.Reordered.eq
  rw [hdefinitions]
  exact ⟨rfl, rfl⟩

/-! ## A sample -/

mutual

def Json.reversed : Json → Json
  | .arr items => .arr (Json.reversedItems items)
  | .obj fields => .obj (Json.reversedFields fields).reverse
  | v => v

def Json.reversedItems : List Json → List Json
  | [] => []
  | v :: rest => v.reversed :: Json.reversedItems rest

def Json.reversedFields : List (String × Json) → List (String × Json)
  | [] => []
  | (key, v) :: rest => (key, v.reversed) :: Json.reversedFields rest

end

mutual

theorem Json.same_reversed : ∀ v : Json, v.Same v.reversed
  | .null => .null
  | .bool b => .bool b
  | .num n => .num n
  | .str s => .str s
  | .arr items => .arr (Json.sameItems_reversed items)
  | .obj fields => .obj (Json.sameFields_reversed fields) (List.reverse_perm _).symm

theorem Json.sameItems_reversed :
    ∀ items : List Json, Json.SameItems items (Json.reversedItems items)
  | [] => .nil
  | v :: rest => .cons v.same_reversed (Json.sameItems_reversed rest)

theorem Json.sameFields_reversed :
    ∀ fields : List (String × Json), Json.SameFields fields (Json.reversedFields fields)
  | [] => .nil
  | (_, v) :: rest => .cons v.same_reversed (Json.sameFields_reversed rest)

end

def sampleValue : Json :=
  .obj [("type", .str "object"),
    ("properties", .obj
      [("limits", .obj [("type", .str "object"),
          ("additionalProperties", .obj [("type", .str "integer"), ("format", .str "int32")])]),
        ("modes", .obj [("type", .str "array"),
          ("items", .obj [("description", .str "A mode."),
            ("enum", .arr [.obj [("low", .null), ("high", .bool true)]])])])])]

def sampleDefinition (schema : Schema) : Definition :=
  .single "Widget" "widgets" "shop.io" "v1" schema

theorem sampleDefinition_reordered {schema other : Schema} (h : Schema.Reordered schema other) :
    Definition.Reordered (sampleDefinition schema) (sampleDefinition other) :=
  ⟨rfl, rfl, rfl, rfl, .cons ⟨rfl, rfl, rfl, .some h⟩ .nil⟩

/-- Both the sample and its reverse are read, and the batches of both are accepted. -/
theorem sampleValue_reversed :
    sampleValue.Same sampleValue.reversed ∧ sampleValue.UniqueKeys ∧
      ∃ fields others, Reading.json.schema (.ofJson sampleValue) = .ok fields ∧
        Reading.json.schema (.ofJson sampleValue.reversed) = .ok others ∧
        fields.toSchema = others.toSchema ∧
        compileBatch ⟨none, true⟩ [sampleDefinition fields.toSchema] =
          compileBatch ⟨none, true⟩ [sampleDefinition others.toSchema] ∧
        ∃ b, (compileBatch ⟨none, true⟩ [sampleDefinition others.toSchema]).batch = .ok b := by
  have hu : sampleValue.UniqueKeys := by
    simp [sampleValue, Json.UniqueKeys, Json.UniqueKeysFields, Json.UniqueKeysItems]
  have hsame := sampleValue.same_reversed
  have hread : (Reading.json.schema (.ofJson sampleValue.reversed)).toOption.map (fun others =>
      (compileBatch ⟨none, true⟩ [sampleDefinition others.toSchema]).batch.toOption.map
        (·.resources.length)) = some (some 1) := by
    decide +kernel
  obtain ⟨others, hw, hcompiled⟩ := exists_ok hread
  obtain ⟨b, hb, -⟩ := exists_batch hcompiled
  have hagree := key_order_irrelevant.1 .json _ _ hsame hu
  rw [hw] at hagree
  obtain ⟨fields, hv, hschema⟩ := hagree.exists_left
  have hreordered : Schema.Reordered fields.toSchema others.toSchema :=
    ⟨.json, _, _, fields, others, hsame, hu, hv, hw, rfl, rfl⟩
  have hbatch := (key_order_irrelevant.2 ⟨none, true⟩ _ _
    (.cons (sampleDefinition_reordered hreordered) .nil)).1
  exact ⟨hsame, hu, fields, others, hv, hw, hschema, hbatch, b, hb⟩

end ResourceTypes
