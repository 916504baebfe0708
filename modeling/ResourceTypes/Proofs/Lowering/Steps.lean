import Mathlib.Logic.Relation
import ResourceTypes.Proofs.Lowering.Outcome

/-! # Lowering step by step

All that lowering does to its state is to name a shape at a site, to add a finished structure or
enumeration, and to note the target of a reference. A whole lowering is a sequence of such steps, so
whatever each step keeps holds in the end: of the names, of the enumerations and of the references.
-/

namespace ResourceTypes

/-- The keys below which the properties of a structure stand. -/
def Schema.fieldKeys (s : Schema) : List String :=
  match s.structProperties? with
  | some properties => properties.map (·.1)
  | none => []

def Schema.pointer? (s : Schema) : Option String :=
  match s.shape with
  | .ref pointer => some pointer
  | _ => none

theorem Schema.fieldKeys_of_structProperties {s : Schema} {properties : List (String × Schema)}
    (h : s.structProperties? = some properties) : s.fieldKeys = properties.map (·.1) := by
  simp only [fieldKeys, h]

namespace Lowering

open Naming (Registry)

/-- Whether a site lies below a kind and is reached by some keys. -/
structure Site.Below (kind : String) (keys : List String) (site : Site) : Prop where
  kind_eq : site.kind = kind
  path_mem : ∀ key ∈ site.path, key = kind ∨ key ∈ keys
  key_mem : site.key ∈ keys
  fieldName_eq : site.fieldName = Naming.camelCase site.key

/-- The site of a property in a structure whose own site is given. -/
theorem Site.Below.property {kind : String} {keys : List String} {site : Site}
    (h : site.Below kind keys) {key : String} (hk : key ∈ keys) (parentIsRoot : Bool) :
    Site.Below kind keys
      ⟨site.kind, site.path ++ [site.key], key, Naming.camelCase key, parentIsRoot⟩ where
  kind_eq := h.kind_eq
  path_mem := by
    intro other ho
    rcases List.mem_append.mp ho with ho | ho
    · exact h.path_mem other ho
    · rw [List.mem_singleton.mp ho]
      exact .inr h.key_mem
  key_mem := hk
  fieldName_eq := rfl

/-- One change of the state, at a site below a kind and for one of some schemas. -/
inductive Step (kind : String) (keys : List String) (nodes : List Schema) : State → State → Prop
  | name {s : State} {site : Site} (below : site.Below kind keys) (signature : Signature)
      (allowBare : Bool) :
      Step kind keys nodes s { s with
        registry := (s.registry.assign signature (site.candidates allowBare)).registry }
  | addStruct (s : State) (type : StructType) :
      Step kind keys nodes s { s with structs := s.structs ++ [type] }
  | addEnum {s : State} {node : Schema} (mem : node ∈ nodes) {scalar : ScalarKind}
      {format : Option String} {literals : List Json}
      (shape : node.shape = .enum scalar format literals) {type : EnumType}
      (base : type.base = scalarType scalar format)
      (constants : type.constants = enumConstants type.name literals) :
      Step kind keys nodes s { s with enums := s.enums ++ [type] }
  | addRef {s : State} {node : Schema} (mem : node ∈ nodes) {pointer : String}
      (target : node.pointer? = some pointer) :
      Step kind keys nodes s { s with refs := s.refs ++ [Naming.refName pointer] }

abbrev Steps (kind : String) (keys : List String) (nodes : List Schema) : State → State → Prop :=
  Relation.ReflTransGen (Step kind keys nodes)

variable {kind : String} {keys : List String} {nodes : List Schema} {s s' : State}

/-! ## A lowering is a sequence of steps -/

theorem lowerEnum_steps {site : Site} (hs : site.Below kind keys) {node : Schema}
    (hn : node ∈ nodes) {scalar : ScalarKind} {format : Option String} {literals : List Json}
    (hshape : node.shape = .enum scalar format literals) (s : State) :
    Steps kind keys nodes s (lowerEnum site scalar format literals s).2 := by
  have hname : Step kind keys nodes s _ := .name hs (.ofLiterals literals) true
  unfold lowerEnum
  rcases s.registry.assign_cases (.ofLiterals literals) (site.candidates true) with
    ⟨name, -, ha⟩ | ⟨name, -, -, ha⟩
  · rw [ha]
    exact .refl
  · rw [ha] at hname ⊢
    exact .tail (.single hname) (.addEnum hn hshape rfl rfl)

def Covers (keys : List String) (nodes : List Schema) : Prop :=
  ∀ node ∈ nodes, node.fieldKeys ⊆ keys

mutual

theorem lowerSchema_steps (hk : Covers keys nodes) {site : Site} (hs : site.Below kind keys) :
    ∀ (schema : Schema), schema.nodes ⊆ nodes → ∀ s : State,
      Steps kind keys nodes s (lowerSchema site schema s).2
  | .mk description shape, hn, s => by
      rw [lowerSchema]
      exact lowerShape_steps hk hs description shape hn s

theorem lowerShape_steps (hk : Covers keys nodes) {site : Site} (hs : site.Below kind keys)
    (description : Option String) :
    ∀ (shape : Shape), (Schema.mk description shape).nodes ⊆ nodes → ∀ s : State,
      Steps kind keys nodes s (lowerShape site description shape s).2
  | .scalar scalar format, _, s => by
      rw [lowerShape]
  | .enum scalar format literals, hn, s => by
      rw [lowerShape]
      exact lowerEnum_steps hs (hn (Schema.self_mem_nodes _)) rfl s
  | .object properties additional preserveUnknown, hn, s => by
      by_cases hc : isCondition properties = true
      · rw [lowerShape_condition hc]
      by_cases he : properties.isEmpty = true
      · cases additional with
        | none => rw [lowerShape_bare hc he]
        | some schema =>
            have hcontent : schema.nodes ⊆ nodes := by
              rw [Schema.nodes, Shape.nodes, if_neg hc, if_pos he, Schema.optionNodes] at hn
              exact fun node hm => hn (List.mem_cons_of_mem _ hm)
            rw [lowerShape_mapping hc he]
            exact lowerSchema_steps hk hs schema hcontent s
      · have hp : (Schema.mk description
            (.object properties additional preserveUnknown)).structProperties? = some properties :=
          Schema.structProperties_of_object (eq_false_of_ne_true hc) (eq_false_of_ne_true he)
        have hkeys : properties.map (·.1) ⊆ keys := by
          rw [← Schema.fieldKeys_of_structProperties hp]
          exact hk _ (hn (Schema.self_mem_nodes _))
        have hproperties : Schema.propertyNodes properties ⊆ nodes := by
          rw [Schema.nodes_of_structProperties hp] at hn
          exact fun node hm => hn (List.mem_cons_of_mem _ hm)
        have hname : Step kind keys nodes s _ :=
          .name hs (.ofProperties properties) !site.parentIsRoot
        have hfields := lowerFields_steps hk site.kind (site.path ++ [site.key]) false
          (fun hkey => hs.property hkey false) properties hkeys hproperties
        rw [lowerShape_struct hc he]
        rcases s.registry.assign_cases (.ofProperties properties)
          (site.candidates !site.parentIsRoot) with ⟨name, -, ha⟩ | ⟨name, -, -, ha⟩
        · rw [ha]
          exact .refl
        · -- The name is taken first, and the structure is added when its fields are complete.
          rw [ha] at hname ⊢
          exact .tail (.trans (.single hname) (hfields _)) (.addStruct _ _)
  | .array none, _, s => by
      rw [lowerShape]
  | .array (some schema), hn, s => by
      rw [lowerShape]
      exact lowerSchema_steps hk hs schema (fun node hm => hn (List.mem_cons_of_mem _ hm)) s
  | .ref pointer, hn, s => by
      rw [lowerShape]
      exact .single (.addRef (hn (Schema.self_mem_nodes _)) rfl)
  | .intOrString, _, s => by
      rw [lowerShape]
  | .untyped, _, s => by
      rw [lowerShape]

theorem lowerFields_steps (hk : Covers keys nodes) (siteKind : String) (path : List String)
    (parentIsRoot : Bool)
    (hs : ∀ {key : String}, key ∈ keys →
      Site.Below kind keys ⟨siteKind, path, key, Naming.camelCase key, parentIsRoot⟩) :
    ∀ (properties : List (String × Schema)), properties.map (·.1) ⊆ keys →
      Schema.propertyNodes properties ⊆ nodes → ∀ s : State,
        Steps kind keys nodes s (lowerFields siteKind path parentIsRoot properties s).2
  | [], _, _, s => by
      rw [lowerFields]
  | (key, schema) :: rest, hkeys, hn, s => by
      rw [lowerFields]
      have hkey : key ∈ keys := hkeys List.mem_cons_self
      have hrest : rest.map (·.1) ⊆ keys := fun other ho => hkeys (List.mem_cons_of_mem _ ho)
      rw [Schema.propertyNodes] at hn
      have hfirst := lowerSchema_steps hk (hs hkey) schema
        (fun node hm => hn (List.mem_append_left _ hm)) s
      exact hfirst.trans (lowerFields_steps hk siteKind path parentIsRoot hs rest hrest
        (fun node hm => hn (List.mem_append_right _ hm)) _)

end

/-! ## What a lowering adds -/

def NamedBelow (kind : String) (keys : List String) (name : String) : Prop :=
  ∃ (r : Registry) (site : Site) (allowBare : Bool), site.Below kind keys ∧
    name = r.freeName (site.candidates allowBare)

theorem Site.Below.mono {larger : List String} (hk : keys ⊆ larger) {site : Site}
    (h : site.Below kind keys) : site.Below kind larger :=
  { h with
    path_mem := fun key hm => (h.path_mem key hm).imp_right (hk ·)
    key_mem := hk h.key_mem }

theorem NamedBelow.mono {larger : List String} (hk : keys ⊆ larger) {name : String}
    (h : NamedBelow kind keys name) : NamedBelow kind larger name := by
  obtain ⟨r, site, allowBare, hbelow, hname⟩ := h
  exact ⟨r, site, allowBare, hbelow.mono hk, hname⟩

def EnumOf (nodes : List Schema) (type : EnumType) : Prop :=
  ∃ node ∈ nodes, ∃ scalar format literals, node.shape = .enum scalar format literals ∧
    type.base = scalarType scalar format ∧ type.constants = enumConstants type.name literals

def TargetOf (nodes : List Schema) (name : String) : Prop :=
  ∃ node ∈ nodes, ∃ pointer, node.pointer? = some pointer ∧ name = Naming.refName pointer

theorem mem_assign_names {r : Registry} {signature : Signature} {c : Naming.Candidates}
    {entry : Signature × String} (h : entry ∈ (r.assign signature c).registry.names) :
    entry ∈ r.names ∨ entry.2 = r.freeName c := by
  unfold Registry.assign at h
  split at h
  · exact .inl h
  · rcases List.mem_cons.mp h with rfl | h
    · exact .inr rfl
    · exact .inl h

theorem Step.names (h : Step kind keys nodes s s') {entry : Signature × String}
    (he : entry ∈ s'.registry.names) :
    entry ∈ s.registry.names ∨ NamedBelow kind keys entry.2 := by
  cases h with
  | name below signature allowBare =>
      exact (mem_assign_names he).imp_right fun hfree => ⟨_, _, allowBare, below, hfree⟩
  | addStruct | addEnum | addRef => exact .inl he

theorem Step.enums (h : Step kind keys nodes s s') {type : EnumType} (he : type ∈ s'.enums) :
    type ∈ s.enums ∨ EnumOf nodes type := by
  cases h with
  | addEnum mem shape base constants =>
      rcases List.mem_append.mp he with he | he
      · exact .inl he
      · rw [List.mem_singleton.mp he]
        exact .inr ⟨_, mem, _, _, _, shape, base, constants⟩
  | name | addStruct | addRef => exact .inl he

theorem Step.refs (h : Step kind keys nodes s s') {name : String} (hn : name ∈ s'.refs) :
    name ∈ s.refs ∨ TargetOf nodes name := by
  cases h with
  | addRef mem target =>
      rcases List.mem_append.mp hn with hn | hn
      · exact .inl hn
      · exact .inr ⟨_, mem, _, target, List.mem_singleton.mp hn⟩
  | name | addStruct | addEnum => exact .inl hn

/-- Whatever one step may add to a part of the state, any number of steps may add. -/
theorem Steps.adds {α : Type} {f : State → List α} {P : α → Prop}
    (hstep : ∀ {s s' : State}, Step kind keys nodes s s' → ∀ {a}, a ∈ f s' → a ∈ f s ∨ P a)
    (h : Steps kind keys nodes s s') {a : α} (ha : a ∈ f s') : a ∈ f s ∨ P a := by
  induction h generalizing a with
  | refl => exact .inl ha
  | tail _ hlast ih =>
      -- What the last step did not add was there before it.
      rcases hstep hlast ha with ha | ha
      · exact ih ha
      · exact .inr ha

end Lowering

end ResourceTypes
