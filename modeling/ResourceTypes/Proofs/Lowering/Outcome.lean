import ResourceTypes.Proofs.Lowering.Growth

/-! # Lowering agrees with the translation

By induction on the schema, lowering makes types of schemas that it comes to and of nothing else,
and what it returns is the translation by the names that are known afterwards. A shape that has a
name is passed over, so the induction needs nothing about where the name came from.
-/

namespace ResourceTypes.Lowering

open Naming (Registry)

/-! ## One new name -/

theorem memo_extends_cons {r : Registry} {signature : Signature}
    (h : r.names.lookup signature = none) (name : String) (reserved : List String) :
    r.memo.Extends (Registry.memo ⟨(signature, name) :: r.names, reserved⟩) := by
  intro other found hf
  have hne : other ≠ signature := by
    rintro rfl
    rw [Registry.memo, h] at hf
    simp at hf
  rw [Registry.memo, List.lookup_cons, beq_false_of_ne hne]
  exact hf

theorem not_mem_of_lookup {names : List (Signature × String)} {signature : Signature}
    (h : names.lookup signature = none) : signature ∉ names.map (·.1) := by
  intro hm
  obtain ⟨entry, he, rfl⟩ := List.mem_map.mp hm
  simpa using List.lookup_eq_none_iff.mp h entry he

theorem memo_of_mem_names {r : Registry} (h : (r.names.map (·.1)).Nodup) {signature : Signature}
    {name : String} (hm : (signature, name) ∈ r.names) : r.memo signature = some name :=
  (Keyed.lookup_eq_some_iff h).mpr hm

theorem mem_names_of_memo {r : Registry} {signature : Signature} {name : String}
    (h : r.memo signature = some name) : (signature, name) ∈ r.names :=
  Keyed.mem_of_lookup h

theorem memo_cons_self (names : List (Signature × String)) (signature : Signature) (name : String)
    (reserved : List String) :
    Registry.memo ⟨(signature, name) :: names, reserved⟩ signature = some name := by
  simp [Registry.memo]

/-- A structure takes its name before its properties are lowered and is added after them. -/
theorem Grows.addStruct {s s' : State} {made : List Made} {properties : List (String × Schema)}
    {type : StructType}
    (hn : s.registry.names.lookup (.ofProperties properties) = none)
    (hr : type.name ∉ s.registry.reserved)
    (h : Grows { s with
      registry := ⟨(.ofProperties properties, type.name) :: s.registry.names,
        type.name :: s.registry.reserved⟩ } s' made) :
    Grows s { s' with structs := s'.structs ++ [type] } (made ++ [.struct properties type]) where
  names := by
    rw [List.map_append, List.append_assoc]
    exact h.names
  reserved := by
    rw [List.map_append, List.append_assoc]
    exact h.reserved
  memo := fun signature name hm =>
    h.memo signature name (memo_extends_cons hn _ _ signature name hm)
  signatures := fun hd => h.signatures (List.nodup_cons.mpr ⟨not_mem_of_lookup hn, hd⟩)
  nodup := fun hd => h.nodup (List.nodup_cons.mpr ⟨hr, hd⟩)
  structs := by
    rw [List.filterMap_append, ← List.append_assoc]
    exact h.structs.append_right _
  enums := by
    have he : [Made.struct properties type].filterMap Made.enum? = [] := rfl
    rw [List.filterMap_append, he, List.append_nil]
    exact h.enums
  refs := h.refs

/-- An enumeration takes its name and is added at once. -/
theorem Grows.addEnum {s : State} {literals : List Json} {type : EnumType}
    (hn : s.registry.names.lookup (.ofLiterals literals) = none)
    (hr : type.name ∉ s.registry.reserved) :
    Grows s
      { s with
        registry := ⟨(.ofLiterals literals, type.name) :: s.registry.names,
          type.name :: s.registry.reserved⟩
        enums := s.enums ++ [type] }
      [.enum literals type] where
  names := rfl
  reserved := rfl
  memo := memo_extends_cons hn _ _
  signatures := fun hd => List.nodup_cons.mpr ⟨not_mem_of_lookup hn, hd⟩
  nodup := fun hd => List.nodup_cons.mpr ⟨hr, hd⟩
  structs := by
    have hs : [Made.enum literals type].filterMap Made.struct? = [] := rfl
    rw [hs, List.append_nil]
  enums := .refl _
  refs := fun _ h => h

/-! ## Resolved types -/

theorem resolved_of_no_names {s : State} {type : TypeRef} (h : type.names = []) :
    Resolved s type := by
  intro name hn
  rw [h] at hn
  simp at hn

theorem scalarType_names (kind : ScalarKind) (format : Option String) :
    (scalarType kind format).names = [] := by
  unfold scalarType
  split <;> rfl

theorem bareObjectType_names (key : String) (preserveUnknown : Bool) :
    (bareObjectType key preserveUnknown).names = [] := by
  unfold bareObjectType
  split
  · rfl
  · split <;> rfl

theorem resolved_named {s : State} {signature : Signature} {name : String}
    (h : s.registry.memo signature = some name) : Resolved s (.named name) := by
  intro other ho
  rw [TypeRef.names, List.mem_singleton] at ho
  subst ho
  exact .inl (List.mem_map.mpr ⟨_, mem_names_of_memo h, rfl⟩)

/-! ## Objects -/

section Objects

variable {site : Site} {description : Option String} {properties : List (String × Schema)}
  {additional : Option Schema} {preserveUnknown : Bool} {s : State}

theorem lowerShape_condition (hc : isCondition properties = true) :
    lowerShape site description (.object properties additional preserveUnknown) s =
      (.plain (.external .condition), s) := by
  cases additional <;> rw [lowerShape, if_pos hc]

theorem lowerShape_bare (hc : ¬isCondition properties = true) (he : properties.isEmpty = true) :
    lowerShape site description (.object properties none preserveUnknown) s =
      (.plain (bareObjectType site.key preserveUnknown), s) := by
  rw [lowerShape, if_neg hc, if_pos he]

theorem lowerShape_mapping {schema : Schema} (hc : ¬isCondition properties = true)
    (he : properties.isEmpty = true) :
    lowerShape site description (.object properties (some schema) preserveUnknown) s =
      ((lowerSchema site schema s).1.wrap .mapping, (lowerSchema site schema s).2) := by
  rw [lowerShape, if_neg hc, if_pos he]

theorem lowerShape_struct (hc : ¬isCondition properties = true) (he : ¬properties.isEmpty = true) :
    lowerShape site description (.object properties additional preserveUnknown) s =
      let assigned :=
        s.registry.assign (.ofProperties properties) (site.candidates !site.parentIsRoot)
      if assigned.fresh then
        let path := site.path ++ [site.key]
        let fields :=
          lowerFields site.kind path false properties { s with registry := assigned.registry }
        let type : StructType :=
          ⟨assigned.name, ".".intercalate (path.drop 1), sortFields fields.1,
            structDescription assigned.name (".".intercalate path) description, false⟩
        (.plain (.named assigned.name), { fields.2 with structs := fields.2.structs ++ [type] })
      else (.plain (.named assigned.name), s) := by
  cases additional <;> rw [lowerShape, if_neg hc, if_neg he]

end Objects

/-! ## The induction -/

structure Outcome (key : String) (schema : Schema) (s : State) (result : Lowered × State) :
    Prop where
  makes : Makes schema.nodes s result.2
  translated : translate result.2.registry.memo key schema = some result.1
  resolved : Resolved result.2 result.1.type

structure FieldsOutcome (properties : List (String × Schema)) (s : State)
    (result : List Field × State) : Prop where
  makes : Makes (Schema.propertyNodes properties) s result.2
  translated : Translates result.2.registry.memo properties result.1
  resolved : ∀ field ∈ result.1, Resolved result.2 field.type

/-- A schema whose type is known without the state. -/
theorem Outcome.plain {key : String} {schema : Schema} {s : State} {type : TypeRef}
    (ht : ∀ memo, translate memo key schema = some (.plain type)) (hn : type.names = []) :
    Outcome key schema s (.plain type, s) :=
  ⟨.refl _ s, ht _, resolved_of_no_names hn⟩

/-- A container has the nodes of its contents and puts a former around their type. -/
theorem Outcome.wrap {key : String} {schema content : Schema} {s : State}
    {result : Lowered × State} (h : Outcome key content s result) (former : TypeRef → TypeRef)
    (hn : content.nodes ⊆ schema.nodes) (hf : ∀ type, (former type).names = type.names)
    (ht : ∀ memo, translate memo key schema = (translate memo key content).map (·.wrap former)) :
    Outcome key schema s (result.1.wrap former, result.2) := by
  refine ⟨h.makes.mono hn, ?_, ?_⟩
  · rw [ht, h.translated, Option.map_some]
  · intro name hm
    exact h.resolved name (hf _ ▸ hm)

/-- A shape with a name. -/
theorem Outcome.known {key : String} {schema : Schema} {s : State} {signature : Signature}
    {name : String} {lowered : Lowered} (hm : s.registry.memo signature = some name)
    (hl : lowered.type = .named name)
    (ht : ∀ memo, memo signature = some name → translate memo key schema = some lowered) :
    Outcome key schema s (lowered, s) := by
  refine ⟨.refl _ s, ht _ hm, ?_⟩
  rw [hl]
  exact resolved_named hm

theorem Grows.addRef (s : State) (name : String) :
    Grows s { s with refs := s.refs ++ [name] } [] :=
  { Grows.refl s with refs := List.subset_append_left _ _ }

theorem Outcome.ref {key : String} {schema : Schema} {s : State} (pointer : String)
    (ht : ∀ memo, translate memo key schema =
      some (.plain (.named (Naming.refName pointer)))) :
    Outcome key schema s
      (.plain (.named (Naming.refName pointer)),
        { s with refs := s.refs ++ [Naming.refName pointer] }) := by
  refine ⟨⟨[], .addRef s _, by simp⟩, ht _, ?_⟩
  intro name hm
  rw [List.mem_singleton.mp hm]
  exact .inr (List.mem_append_right _ List.mem_cons_self)

/-- The field of a property, and then those of the others. -/
theorem Outcome.cons {key : String} {schema : Schema} {s : State} {result : Lowered × State}
    {rest : List (String × Schema)} {fields : List Field × State}
    (h : Outcome key schema s result) (hr : FieldsOutcome rest result.2 fields) :
    FieldsOutcome ((key, schema) :: rest) s
      (⟨Naming.camelCase key, key, result.1.type, schema.description, result.1.enumRef⟩ :: fields.1,
        fields.2) := by
  refine ⟨?_, ?_, ?_⟩
  · rw [Schema.propertyNodes]
    exact (h.makes.mono (List.subset_append_left _ _)).trans
      (hr.makes.mono (List.subset_append_right _ _))
  · refine .cons ?_ hr.translated
    rw [translateField, translate_mono hr.makes.memo _ _ h.translated, Option.map_some]
  · intro field hf
    rcases List.mem_cons.mp hf with rfl | hf
    · exact hr.makes.resolved h.resolved
    · exact hr.resolved field hf

/-- A new enumeration. -/
theorem Outcome.enum (type : EnumType) {key : String} {schema : Schema} {s : State}
    {literals : List Json} (hl : schema.enumLiterals? = some literals)
    (ht : ∀ (memo : Memo) (name : String), memo (.ofLiterals literals) = some name →
      translate memo key schema = some ⟨.named name, some name⟩)
    (hn : s.registry.names.lookup (.ofLiterals literals) = none)
    (hr : type.name ∉ s.registry.reserved)
    (hc : type.constants = enumConstants type.name literals) :
    Outcome key schema s
      (⟨.named type.name, some type.name⟩,
        { s with
          registry := ⟨(.ofLiterals literals, type.name) :: s.registry.names,
            type.name :: s.registry.reserved⟩
          enums := s.enums ++ [type] }) := by
  have hm := memo_cons_self s.registry.names (.ofLiterals literals) type.name
    (type.name :: s.registry.reserved)
  refine ⟨⟨_, .addEnum hn hr, ?_⟩, ht _ _ hm, resolved_named hm⟩
  intro m hmem
  rw [List.mem_singleton.mp hmem]
  exact ⟨⟨schema, schema.self_mem_nodes, hl⟩, hc⟩

theorem lowerEnum_outcome (site : Site) (description : Option String) (kind : ScalarKind)
    (format : Option String) (literals : List Json) (s : State) :
    Outcome site.key (.mk description (.enum kind format literals)) s
      (lowerEnum site kind format literals s) := by
  have ht : ∀ (memo : Memo) (name : String), memo (.ofLiterals literals) = some name →
      translate memo site.key (.mk description (.enum kind format literals)) =
        some ⟨.named name, some name⟩ := by
    intro memo name hm
    rw [translate, translateShape, hm, Option.map_some]
  unfold lowerEnum
  rcases s.registry.assign_cases (.ofLiterals literals) (site.candidates true) with
    ⟨name, hn, ha⟩ | ⟨name, hn, hr, ha⟩
  · rw [ha]
    exact .known hn rfl fun memo hm => ht memo name hm
  · rw [ha]
    exact .enum ⟨name, scalarType kind format, _, enumConstants name literals⟩ rfl ht hn hr rfl

/-- A new structure, by what is known of its properties. -/
theorem Outcome.struct (type : StructType) {key : String} {schema : Schema} {s s' : State}
    {properties : List (String × Schema)} {fields : List Field}
    (hp : schema.structProperties? = some properties)
    (ht : ∀ (memo : Memo) (name : String), memo (.ofProperties properties) = some name →
      translate memo key schema = some (.plain (.named name)))
    (hn : s.registry.names.lookup (.ofProperties properties) = none)
    (hr : type.name ∉ s.registry.reserved)
    (h : FieldsOutcome properties { s with
      registry := ⟨(.ofProperties properties, type.name) :: s.registry.names,
        type.name :: s.registry.reserved⟩ } (fields, s'))
    (hf : type.fields = sortFields fields) :
    Outcome key schema s
      (.plain (.named type.name), { s' with structs := s'.structs ++ [type] }) := by
  obtain ⟨⟨made, hg, hs⟩, htr, hres⟩ := h
  have hm := hg.memo _ _ (memo_cons_self s.registry.names (.ofProperties properties) type.name _)
  have hnodes : Schema.propertyNodes properties ⊆ schema.nodes := by
    rw [Schema.nodes_of_structProperties hp]
    exact List.subset_cons_self _ _
  refine ⟨⟨_, hg.addStruct hn hr, ?_⟩, ht _ _ hm, resolved_named hm⟩
  intro m hmem
  rcases List.mem_append.mp hmem with hmem | hmem
  · exact (hs m hmem).mono (.refl s') hnodes
  · rw [List.mem_singleton.mp hmem]
    exact ⟨⟨schema, schema.self_mem_nodes, hp⟩, fields, htr, hf, hres⟩

mutual

theorem lowerSchema_outcome (site : Site) :
    ∀ (schema : Schema) (s : State), Outcome site.key schema s (lowerSchema site schema s)
  | .mk description shape, s => by
      rw [lowerSchema]
      exact lowerShape_outcome site description shape s

theorem lowerShape_outcome (site : Site) (description : Option String) :
    ∀ (shape : Shape) (s : State),
      Outcome site.key (.mk description shape) s (lowerShape site description shape s)
  | .scalar kind format, s => by
      rw [lowerShape]
      exact .plain (fun memo => rfl) (scalarType_names kind format)
  | .enum kind format literals, s => by
      rw [lowerShape]
      exact lowerEnum_outcome site description kind format literals s
  | .object properties additional preserveUnknown, s => by
      by_cases hc : isCondition properties = true
      · rw [lowerShape_condition hc]
        exact .plain (fun memo => translateShape_condition hc) rfl
      by_cases he : properties.isEmpty = true
      · cases additional with
        | none =>
            rw [lowerShape_bare hc he]
            exact .plain (fun memo => translateShape_bare hc he)
              (bareObjectType_names site.key preserveUnknown)
        | some schema =>
            rw [lowerShape_mapping hc he]
            refine (lowerSchema_outcome site schema s).wrap .mapping ?_ (fun _ => rfl) ?_
            · rw [Schema.nodes, Shape.nodes, if_neg hc, if_pos he, Schema.optionNodes]
              exact List.subset_cons_self _ _
            · intro memo
              rw [translate, translateShape_mapping hc he]
      · have hp : (Schema.mk description
            (.object properties additional preserveUnknown)).structProperties? = some properties :=
          Schema.structProperties_of_object (eq_false_of_ne_true hc) (eq_false_of_ne_true he)
        have ht : ∀ (memo : Memo) (name : String), memo (.ofProperties properties) = some name →
            translateShape memo site.key (.object properties additional preserveUnknown) =
              some (.plain (.named name)) := by
          intro memo name hm
          rw [translateShape_struct hc he, hm, Option.map_some]
        rw [lowerShape_struct hc he]
        rcases s.registry.assign_cases (.ofProperties properties)
          (site.candidates !site.parentIsRoot) with ⟨name, hn, ha⟩ | ⟨name, hn, hr, ha⟩
        · rw [ha]
          exact .known hn rfl fun memo hm => ht memo name hm
        · rw [ha]
          exact .struct ⟨name, _, sortFields _, _, false⟩ hp ht hn hr
            (lowerFields_outcome site.kind (site.path ++ [site.key]) false properties _) rfl
  | .array none, s => by
      rw [lowerShape]
      exact .plain (fun memo => rfl) rfl
  | .array (some schema), s => by
      rw [lowerShape]
      exact (lowerSchema_outcome site schema s).wrap .sequence
        (List.subset_cons_of_subset _ (List.Subset.refl _)) (fun _ => rfl) fun memo => rfl
  | .ref pointer, s => by
      rw [lowerShape]
      exact .ref pointer (fun memo => rfl)
  | .intOrString, s => by
      rw [lowerShape]
      exact .plain (fun memo => rfl) rfl
  | .untyped, s => by
      rw [lowerShape]
      exact .plain (fun memo => rfl) rfl

theorem lowerFields_outcome (kind : String) (path : List String) (parentIsRoot : Bool) :
    ∀ (properties : List (String × Schema)) (s : State),
      FieldsOutcome properties s (lowerFields kind path parentIsRoot properties s)
  | [], s => by
      rw [lowerFields]
      exact ⟨.refl _ s, .nil, by simp⟩
  | (key, schema) :: rest, s => by
      rw [lowerFields]
      have hschema :=
        lowerSchema_outcome ⟨kind, path, key, Naming.camelCase key, parentIsRoot⟩ schema s
      exact hschema.cons (lowerFields_outcome kind path parentIsRoot rest _)

end

end ResourceTypes.Lowering
