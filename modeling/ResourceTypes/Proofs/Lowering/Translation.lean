import Mathlib.Data.List.Forall2
import ResourceTypes.Proofs.Lowering.Nodes

/-! # The translation of schemas without a registry

Once the name of every shape is known, the type of a schema depends on nothing but the schema and
its key. The translation reads the names off a memo and never makes one up: it has no type for a
shape without a name, and what it translates it translates in the same way under a larger memo.
-/

namespace ResourceTypes

abbrev Memo := Signature → Option String

def Naming.Registry.memo (r : Naming.Registry) : Memo :=
  fun signature => r.names.lookup signature

def Memo.Extends (memo larger : Memo) : Prop :=
  ∀ signature name, memo signature = some name → larger signature = some name

namespace Lowering

mutual

/-- The type of a schema below a key, by the names of a memo. -/
def translate (memo : Memo) (key : String) : Schema → Option Lowered
  | .mk _ shape => translateShape memo key shape

def translateShape (memo : Memo) (key : String) : Shape → Option Lowered
  | .scalar kind format => some (.plain (scalarType kind format))
  | .enum _ _ literals =>
    (memo (.ofLiterals literals)).map fun name => ⟨.named name, some name⟩
  | .object properties additional preserveUnknown =>
    if isCondition properties then some (.plain (.external .condition))
    else if properties.isEmpty then
      match additional with
      | some schema => (translate memo key schema).map (·.wrap .mapping)
      | none =>
        some <| .plain <|
          if key = "metadata" then .external .objectMeta
          else if preserveUnknown then .external .rawExtension
          else .mapping .any
    else (memo (.ofProperties properties)).map fun name => .plain (.named name)
  | .array none => some (.plain (.sequence .any))
  | .array (some schema) => (translate memo key schema).map (·.wrap .sequence)
  | .ref pointer => some (.plain (.named (Naming.refName pointer)))
  | .intOrString => some (.plain (.external .intOrString))
  | .untyped => some (.plain (.external .json))

end

/-- The field of a property: its name is made of the words of the key, and all else is the
property's own. -/
def translateField (memo : Memo) (property : String × Schema) : Option Field :=
  (translate memo property.1 property.2).map fun lowered =>
    ⟨Naming.camelCase property.1, property.1, lowered.type, property.2.description,
      lowered.enumRef⟩

def Translates (memo : Memo) (properties : List (String × Schema)) (fields : List Field) : Prop :=
  List.Forall₂ (fun property field => translateField memo property = some field) properties fields

section Objects

variable {memo : Memo} {key : String} {properties : List (String × Schema)}
  {additional : Option Schema} {preserveUnknown : Bool}

theorem translateShape_condition (hc : isCondition properties = true) :
    translateShape memo key (.object properties additional preserveUnknown) =
      some (.plain (.external .condition)) := by
  cases additional <;> rw [translateShape, if_pos hc]

theorem translateShape_bare (hc : ¬isCondition properties = true)
    (he : properties.isEmpty = true) :
    translateShape memo key (.object properties none preserveUnknown) =
      some (.plain (bareObjectType key preserveUnknown)) := by
  rw [translateShape, if_neg hc, if_pos he, bareObjectType]

theorem translateShape_mapping {schema : Schema} (hc : ¬isCondition properties = true)
    (he : properties.isEmpty = true) :
    translateShape memo key (.object properties (some schema) preserveUnknown) =
      (translate memo key schema).map (·.wrap .mapping) := by
  rw [translateShape, if_neg hc, if_pos he]

theorem translateShape_struct (hc : ¬isCondition properties = true)
    (he : ¬properties.isEmpty = true) :
    translateShape memo key (.object properties additional preserveUnknown) =
      (memo (.ofProperties properties)).map fun name => .plain (.named name) := by
  cases additional <;> rw [translateShape, if_neg hc, if_neg he]

end Objects

theorem translate_of_structProperties {s : Schema} {properties : List (String × Schema)}
    (h : s.structProperties? = some properties) (memo : Memo) (key : String) :
    translate memo key s =
      (memo (.ofProperties properties)).map fun name => .plain (.named name) := by
  obtain ⟨description, additional, preserveUnknown, rfl, hc, he⟩ :=
    Schema.shape_of_structProperties h
  rw [translate, translateShape_struct (ne_true_of_eq_false hc) (ne_true_of_eq_false he)]

theorem translate_of_enumLiterals {s : Schema} {literals : List Json}
    (h : s.enumLiterals? = some literals) (memo : Memo) (key : String) :
    translate memo key s =
      (memo (.ofLiterals literals)).map fun name => ⟨.named name, some name⟩ := by
  obtain ⟨description, kind, format, rfl⟩ := Schema.shape_of_enumLiterals h
  rw [translate, translateShape]

theorem translate_of_content {s content : Schema} {container : TypeRef → TypeRef}
    (h : s.content? = some (container, content)) (memo : Memo) (key : String) :
    translate memo key s = (translate memo key content).map (·.wrap container) := by
  rcases Schema.shape_of_content h with
    ⟨description, rfl, rfl⟩ | ⟨description, properties, preserveUnknown, rfl, hc, he, rfl⟩
  · rw [translate, translateShape]
  · rw [translate, translateShape_mapping hc he]

/-- Any other schema has its type whatever the memo is. -/
theorem translate_of_leaf {s : Schema} (hp : s.structProperties? = none)
    (hc : s.content? = none) (he : s.enumLiterals? = none) (key : String) :
    ∃ type, ∀ memo, translate memo key s = some (.plain type) := by
  obtain ⟨description, shape⟩ := s
  cases shape with
  | enum kind format literals => cases he
  | object properties additional preserveUnknown =>
      by_cases hcond : isCondition properties = true
      · exact ⟨_, fun memo => translateShape_condition hcond⟩
      by_cases hempty : properties.isEmpty = true
      · cases additional with
        | none => exact ⟨_, fun memo => translateShape_bare hcond hempty⟩
        | some value => simp [Schema.content?, Schema.shape, hcond, hempty] at hc
      · simp [Schema.structProperties?, Schema.shape, hcond, hempty] at hp
  | array items =>
      cases items with
      | none => exact ⟨_, fun memo => rfl⟩
      | some item => cases hc
  | _ => exact ⟨_, fun memo => rfl⟩

theorem translate_mono {memo larger : Memo} (h : memo.Extends larger) (key : String)
    (schema : Schema) {lowered : Lowered} (ht : translate memo key schema = some lowered) :
    translate larger key schema = some lowered := by
  induction schema using Schema.lowering_induction generalizing lowered with
  | leaf s hp hc =>
      cases he : s.enumLiterals? with
      | none =>
          obtain ⟨type, htype⟩ := translate_of_leaf hp hc he key
          rw [htype] at ht ⊢
          exact ht
      | some literals =>
          rw [translate_of_enumLiterals he] at ht ⊢
          obtain ⟨name, hn, rfl⟩ := Option.map_eq_some_iff.mp ht
          rw [h _ _ hn, Option.map_some]
  | content s container c hc ih =>
      rw [translate_of_content hc] at ht ⊢
      obtain ⟨inner, hi, rfl⟩ := Option.map_eq_some_iff.mp ht
      rw [ih hi, Option.map_some]
  | struct s properties hp =>
      rw [translate_of_structProperties hp] at ht ⊢
      obtain ⟨name, hn, rfl⟩ := Option.map_eq_some_iff.mp ht
      rw [h _ _ hn, Option.map_some]

theorem translateField_mono {memo larger : Memo} (h : memo.Extends larger)
    {property : String × Schema} {field : Field} (ht : translateField memo property = some field) :
    translateField larger property = some field := by
  obtain ⟨lowered, hl, rfl⟩ := Option.map_eq_some_iff.mp ht
  rw [translateField, translate_mono h _ _ hl, Option.map_some]

theorem Translates.mono {memo larger : Memo} (h : memo.Extends larger)
    {properties : List (String × Schema)} {fields : List Field}
    (ht : Translates memo properties fields) : Translates larger properties fields :=
  ht.imp fun _ _ hf => translateField_mono h hf

theorem Translates.exists_field {memo : Memo} {properties : List (String × Schema)}
    {fields : List Field} (ht : Translates memo properties fields) {property : String × Schema}
    (hp : property ∈ properties) :
    ∃ field ∈ fields, translateField memo property = some field := by
  induction ht with
  | nil => simp at hp
  | cons hf _ ih =>
      rcases List.mem_cons.mp hp with rfl | hp
      · exact ⟨_, List.mem_cons_self, hf⟩
      · obtain ⟨field, hm, h⟩ := ih hp
        exact ⟨field, List.mem_cons_of_mem _ hm, h⟩

theorem Translates.exists_property {memo : Memo} {properties : List (String × Schema)}
    {fields : List Field} (ht : Translates memo properties fields) {field : Field}
    (hf : field ∈ fields) :
    ∃ property ∈ properties, translateField memo property = some field := by
  induction ht with
  | nil => simp at hf
  | cons h _ ih =>
      rcases List.mem_cons.mp hf with rfl | hf
      · exact ⟨_, List.mem_cons_self, h⟩
      · obtain ⟨property, hm, h⟩ := ih hf
        exact ⟨property, List.mem_cons_of_mem _ hm, h⟩

theorem translateField_key {memo : Memo} {property : String × Schema} {field : Field}
    (h : translateField memo property = some field) : field.jsonKey = property.1 := by
  obtain ⟨lowered, -, rfl⟩ := Option.map_eq_some_iff.mp h
  rfl

theorem mem_sortFields {fields : List Field} {field : Field} :
    field ∈ sortFields fields ↔ field ∈ fields :=
  (List.mergeSort_perm _ _).mem_iff

/-- Properties with distinct keys have a field each, which is found by its key. -/
theorem Translates.field_of_key {memo : Memo} {properties : List (String × Schema)}
    {fields : List Field} (h : Translates memo properties fields)
    (hd : (properties.map (·.1)).Nodup) {property : String × Schema} (hp : property ∈ properties)
    {field : Field} (hf : field ∈ sortFields fields) (hk : field.jsonKey = property.1) :
    ∃ lowered, translate memo property.1 property.2 = some lowered ∧
      field.type = lowered.type := by
  obtain ⟨other, ho, ht⟩ := h.exists_property (mem_sortFields.mp hf)
  have hkey := (translateField_key ht).symm.trans hk
  obtain rfl := Keyed.eq_of_mem_of_nodup hd ho hp hkey
  obtain ⟨lowered, hl, rfl⟩ := Option.map_eq_some_iff.mp ht
  exact ⟨lowered, hl, rfl⟩

theorem Translates.exists_field_of_key {memo : Memo} {properties : List (String × Schema)}
    {fields : List Field} (h : Translates memo properties fields) {property : String × Schema}
    (hp : property ∈ properties) : ∃ field ∈ sortFields fields, field.jsonKey = property.1 := by
  obtain ⟨field, hf, ht⟩ := h.exists_field hp
  exact ⟨field, mem_sortFields.mpr hf, translateField_key ht⟩

end Lowering

open Lowering

/-- Whether the properties of every structure among some schemas are translated once it has a
name. -/
def Memo.Closed (memo : Memo) (nodes : List Schema) : Prop :=
  ∀ node ∈ nodes, ∀ properties name, node.structProperties? = some properties →
    memo (.ofProperties properties) = some name → ∃ fields, Translates memo properties fields

/-- What lies below a schema that is translated is translated as well. -/
theorem Memo.Closed.translated_below {memo : Memo} {nodes : List Schema} (h : memo.Closed nodes)
    {s : Schema} (hs : s.nodes ⊆ nodes) {key : String} {lowered : Lowered}
    (ht : translate memo key s = some lowered) {node : Schema} (hn : node ∈ s.nodes) :
    ∃ key lowered, translate memo key node = some lowered := by
  induction s using Schema.lowering_induction generalizing key lowered with
  | leaf s hp hc =>
      rw [Schema.nodes_of_leaf hp hc, List.mem_singleton] at hn
      exact ⟨key, lowered, hn ▸ ht⟩
  | content s container c hc ih =>
      rw [Schema.nodes_of_content hc] at hn hs
      rcases List.mem_cons.mp hn with rfl | hn
      · exact ⟨key, lowered, ht⟩
      · rw [translate_of_content hc] at ht
        obtain ⟨inner, hi, rfl⟩ := Option.map_eq_some_iff.mp ht
        exact ih (List.subset_of_cons_subset hs) hi hn
  | struct s properties hp ih =>
      have hself := hs s.self_mem_nodes
      rw [Schema.nodes_of_structProperties hp] at hn hs
      rcases List.mem_cons.mp hn with rfl | hn
      · exact ⟨key, lowered, ht⟩
      · rw [translate_of_structProperties hp] at ht
        obtain ⟨name, hm, rfl⟩ := Option.map_eq_some_iff.mp ht
        obtain ⟨fields, hfields⟩ := h s hself properties name hp hm
        obtain ⟨property, hproperty, hbelow⟩ := Schema.mem_propertyNodes.mp hn
        obtain ⟨field, -, hfield⟩ := hfields.exists_field hproperty
        obtain ⟨inner, hi, -⟩ := Option.map_eq_some_iff.mp hfield
        refine ih property hproperty (fun other ho => ?_) hi hbelow
        exact hs (List.mem_cons_of_mem _ (Schema.mem_propertyNodes.mpr ⟨property, hproperty, ho⟩))

end ResourceTypes
