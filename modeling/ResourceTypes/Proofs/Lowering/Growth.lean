import ResourceTypes.Proofs.Lowering.Translation
import ResourceTypes.Proofs.Naming.Registry

/-! # What lowering does to its state

Any stretch of lowering makes some types. Each of them takes one new name, which the registry then
knows by the signature of the shape, and nothing that was there before is lost. The fields of a made
structure are the translations of its properties, and a type that is returned names only what the
registry knows or what a reference asked for.
-/

namespace ResourceTypes.Lowering

open Naming (Registry)

/-! ## Made types -/

/-- A type that lowering has made, with the shape that it was made of. -/
inductive Made
  | struct (properties : List (String × Schema)) (type : StructType)
  | enum (literals : List Json) (type : EnumType)

namespace Made

def signature : Made → Signature
  | .struct properties _ => .ofProperties properties
  | .enum literals _ => .ofLiterals literals

def name : Made → String
  | .struct _ type => type.name
  | .enum _ type => type.name

def entry (m : Made) : Signature × String :=
  (m.signature, m.name)

def struct? : Made → Option StructType
  | .struct _ type => some type
  | .enum _ _ => none

def enum? : Made → Option EnumType
  | .struct _ _ => none
  | .enum _ type => some type

end Made

/-- Whether every name in a type is that of a shape or was asked for by a reference. -/
def Resolved (s : State) (type : TypeRef) : Prop :=
  ∀ name ∈ type.names, name ∈ s.registry.names.map (·.2) ∨ name ∈ s.refs

/-- Whether a type was made of a shape among some schemas, by the names that a state knows. -/
def Made.Sound (s : State) (nodes : List Schema) : Made → Prop
  | .struct properties type =>
    (∃ node ∈ nodes, node.structProperties? = some properties) ∧
      ∃ fields, Translates s.registry.memo properties fields ∧ type.fields = sortFields fields ∧
        ∀ field ∈ fields, Resolved s field.type
  | .enum literals type =>
    (∃ node ∈ nodes, node.enumLiterals? = some literals) ∧
      type.constants = enumConstants type.name literals

/-! ## Growth -/

/-- A state that comes from another one by making types, the latest name first. -/
structure Grows (s s' : State) (made : List Made) : Prop where
  names : s'.registry.names = made.map Made.entry ++ s.registry.names
  reserved : s'.registry.reserved = made.map Made.name ++ s.registry.reserved
  memo : s.registry.memo.Extends s'.registry.memo
  signatures : (s.registry.names.map (·.1)).Nodup → (s'.registry.names.map (·.1)).Nodup
  nodup : s.registry.reserved.Nodup → s'.registry.reserved.Nodup
  structs : s'.structs.Perm (s.structs ++ made.filterMap Made.struct?)
  enums : s'.enums.Perm (s.enums ++ made.filterMap Made.enum?)
  refs : s.refs ⊆ s'.refs

theorem Grows.refl (s : State) : Grows s s [] :=
  ⟨rfl, rfl, fun _ _ h => h, id, id, by simp, by simp, fun _ h => h⟩

theorem Grows.trans {s s' s'' : State} {made made' : List Made} (h : Grows s s' made)
    (h' : Grows s' s'' made') : Grows s s'' (made' ++ made) where
  names := by rw [h'.names, h.names, List.map_append, List.append_assoc]
  reserved := by rw [h'.reserved, h.reserved, List.map_append, List.append_assoc]
  memo := fun signature name hn => h'.memo signature name (h.memo signature name hn)
  signatures := fun hd => h'.signatures (h.signatures hd)
  nodup := fun hd => h'.nodup (h.nodup hd)
  structs := by
    rw [List.filterMap_append]
    refine h'.structs.trans ((h.structs.append_right _).trans ?_)
    rw [List.append_assoc]
    exact List.perm_append_comm.append_left _
  enums := by
    rw [List.filterMap_append]
    refine h'.enums.trans ((h.enums.append_right _).trans ?_)
    rw [List.append_assoc]
    exact List.perm_append_comm.append_left _
  refs := fun _ hn => h'.refs (h.refs hn)

theorem Resolved.mono {s s' : State} {made : List Made} (h : Grows s s' made) {type : TypeRef}
    (hr : Resolved s type) : Resolved s' type := by
  intro name hn
  rcases hr name hn with hm | hm
  · rw [h.names, List.map_append, List.mem_append]
    exact .inl (.inr hm)
  · exact .inr (h.refs hm)

theorem Made.Sound.mono {s s' : State} {made : List Made} (h : Grows s s' made)
    {nodes larger : List Schema} (hn : nodes ⊆ larger) {m : Made} (hm : m.Sound s nodes) :
    m.Sound s' larger := by
  cases m with
  | struct properties type =>
      obtain ⟨⟨node, hnode, hp⟩, fields, ht, hf, hr⟩ := hm
      exact ⟨⟨node, hn hnode, hp⟩, fields, ht.mono h.memo, hf, fun f hm => (hr f hm).mono h⟩
  | enum literals type =>
      obtain ⟨⟨node, hnode, hl⟩, hc⟩ := hm
      exact ⟨⟨node, hn hnode, hl⟩, hc⟩

/-- A state that comes from another one by making types of shapes among some schemas. -/
def Makes (nodes : List Schema) (s s' : State) : Prop :=
  ∃ made, Grows s s' made ∧ ∀ m ∈ made, m.Sound s' nodes

theorem Makes.refl (nodes : List Schema) (s : State) : Makes nodes s s :=
  ⟨[], .refl s, by simp⟩

theorem Makes.trans {nodes : List Schema} {s s' s'' : State} (h : Makes nodes s s')
    (h' : Makes nodes s' s'') : Makes nodes s s'' := by
  obtain ⟨made, hg, hs⟩ := h
  obtain ⟨made', hg', hs'⟩ := h'
  refine ⟨made' ++ made, hg.trans hg', ?_⟩
  intro m hm
  rcases List.mem_append.mp hm with hm | hm
  · exact hs' m hm
  · exact (hs m hm).mono hg' fun _ h => h

theorem Makes.mono {nodes larger : List Schema} (hn : nodes ⊆ larger) {s s' : State}
    (h : Makes nodes s s') : Makes larger s s' := by
  obtain ⟨made, hg, hs⟩ := h
  exact ⟨made, hg, fun m hm => (hs m hm).mono (.refl s') hn⟩

theorem Makes.memo {nodes : List Schema} {s s' : State} (h : Makes nodes s s') :
    s.registry.memo.Extends s'.registry.memo := by
  obtain ⟨made, hg, -⟩ := h
  exact hg.memo

theorem Makes.names_subset {nodes : List Schema} {s s' : State} (h : Makes nodes s s') :
    s.registry.names ⊆ s'.registry.names := by
  obtain ⟨made, hg, -⟩ := h
  rw [hg.names]
  exact List.subset_append_right _ _

theorem Makes.structs_subset {nodes : List Schema} {s s' : State} (h : Makes nodes s s') :
    s.structs ⊆ s'.structs := by
  obtain ⟨made, hg, -⟩ := h
  exact fun _ hm => hg.structs.mem_iff.mpr (List.mem_append_left _ hm)

theorem Makes.resolved {nodes : List Schema} {s s' : State} (h : Makes nodes s s')
    {type : TypeRef} (hr : Resolved s type) : Resolved s' type := by
  obtain ⟨made, hg, -⟩ := h
  exact hr.mono hg

end ResourceTypes.Lowering
