import ResourceTypes.Proofs.Lowering.Steps
import ResourceTypes.Proofs.Naming.Identifiers

/-! # Sound registries

A registry changes in two ways only: a name is taken, or a shape is named. Both keep it sound, which
ties its two parts together: shapes have distinct names, and these are taken. Both also keep what
was there before. A run of changes therefore does the same, and every lowering is such a run.
-/

namespace ResourceTypes

namespace Naming.Registry

/-- Whether shapes have distinct names that are not empty and taken, and nothing is listed twice. -/
structure Sound (r : Registry) : Prop where
  signatures : (r.names.map (·.1)).Nodup
  names : (r.names.map (·.2)).Nodup
  taken : r.names.map (·.2) ⊆ r.reserved
  nonempty : "" ∉ r.names.map (·.2)
  reserved : r.reserved.Nodup

/-- Whether all that a registry holds is still there in another one. -/
structure Keeps (r r' : Registry) : Prop where
  reserved : r.reserved ⊆ r'.reserved
  memo : r.memo.Extends r'.memo

inductive Change : Registry → Registry → Prop
  | reserve (r : Registry) (name : String) : Change r (r.reserve name)
  | assign (r : Registry) (signature : Signature) (c : Candidates) :
      Change r (r.assign signature c).registry

abbrev Changes : Registry → Registry → Prop :=
  Relation.ReflTransGen Change

variable {r r' r'' : Registry}

/-! ## What a sound registry says of its memo -/

theorem Sound.empty : Registry.empty.Sound :=
  ⟨.nil, .nil, List.Subset.refl _, List.not_mem_nil, .nil⟩

theorem Sound.memo_iff (h : r.Sound) {signature : Signature} {name : String} :
    r.memo signature = some name ↔ (signature, name) ∈ r.names :=
  ⟨Lowering.mem_names_of_memo, Lowering.memo_of_mem_names h.signatures⟩

theorem Sound.memo_injective (h : r.Sound) {signature other : Signature} {name : String}
    (hs : r.memo signature = some name) (ho : r.memo other = some name) : signature = other := by
  have hentries :=
    List.inj_on_of_nodup_map h.names (h.memo_iff.mp hs) (h.memo_iff.mp ho) rfl
  exact (Prod.mk.inj hentries).1

theorem Sound.memo_taken (h : r.Sound) {signature : Signature} {name : String}
    (hs : r.memo signature = some name) : name ≠ "" ∧ name ∈ r.reserved := by
  have hname : name ∈ r.names.map (·.2) := List.mem_map.mpr ⟨_, h.memo_iff.mp hs, rfl⟩
  exact ⟨fun he => h.nonempty (he ▸ hname), h.taken hname⟩

/-! ## One change -/

theorem Sound.reserve (h : r.Sound) (name : String) : (r.reserve name).Sound where
  signatures := by rw [reserve_names]; exact h.signatures
  names := by rw [reserve_names]; exact h.names
  taken := by
    rw [reserve_names]
    exact fun other ho => mem_reserve.mpr (.inr (h.taken ho))
  nonempty := by rw [reserve_names]; exact h.nonempty
  reserved := reserve_nodup name h.reserved

/-- A new name may be given to a shape that has none. -/
theorem Sound.cons (h : r.Sound) {signature : Signature} {name : String}
    (hs : r.names.lookup signature = none) (hfree : name ∉ r.reserved) (hne : name ≠ "") :
    Sound ⟨(signature, name) :: r.names, name :: r.reserved⟩ where
  signatures := List.nodup_cons.mpr ⟨Lowering.not_mem_of_lookup hs, h.signatures⟩
  names := List.nodup_cons.mpr ⟨fun hm => hfree (h.taken hm), h.names⟩
  taken := List.cons_subset_cons name h.taken
  nonempty := List.not_mem_cons_of_ne_of_not_mem hne.symm h.nonempty
  reserved := List.nodup_cons.mpr ⟨hfree, h.reserved⟩

theorem Change.sound (h : Change r r') (hr : r.Sound) : r'.Sound := by
  cases h with
  | reserve name => exact hr.reserve name
  | assign signature c =>
      cases hs : r.names.lookup signature with
      | some name =>
          rw [assign_of_some hs]
          exact hr
      | none =>
          rw [assign_of_none hs]
          exact hr.cons hs (freeName_not_mem r c) (freeName_ne_empty r c)

theorem Keeps.refl (r : Registry) : r.Keeps r :=
  ⟨List.Subset.refl _, fun _ _ h => h⟩

theorem Keeps.trans (h : r.Keeps r') (h' : r'.Keeps r'') : r.Keeps r'' :=
  ⟨fun _ hn => h'.reserved (h.reserved hn), fun _ _ hs => h'.memo _ _ (h.memo _ _ hs)⟩

theorem Change.keeps (h : Change r r') : r.Keeps r' := by
  cases h with
  | reserve name =>
      refine ⟨fun other ho => mem_reserve.mpr (.inr ho), fun signature found hs => ?_⟩
      rwa [memo, reserve_names]
  | assign signature c =>
      cases hs : r.names.lookup signature with
      | some name =>
          rw [assign_of_some hs]
          exact .refl r
      | none =>
          rw [assign_of_none hs]
          exact ⟨List.subset_cons_self _ _, Lowering.memo_extends_cons hs _ _⟩

/-! ## Runs -/

theorem Changes.sound (h : Changes r r') (hr : r.Sound) : r'.Sound := by
  induction h with
  | refl => exact hr
  | tail _ hlast ih => exact hlast.sound ih

theorem Changes.keeps (h : Changes r r') : r.Keeps r' := by
  induction h with
  | refl => exact .refl r
  | tail _ hlast ih => exact ih.trans hlast.keeps

theorem changes_reserveAll (r : Registry) (names : List String) :
    Changes r (r.reserveAll names) := by
  induction names generalizing r with
  | nil => exact .refl
  | cons name names ih => exact (ih (r.reserve name)).head (.reserve r name)

end Naming.Registry

namespace Lowering

open Naming (Registry)

variable {kind : String} {keys : List String} {nodes : List Schema} {s s' : State}

/-- Of all that a step may do, only the naming of a shape touches the registry. -/
theorem Step.changes (h : Step kind keys nodes s s') :
    Registry.Changes s.registry s'.registry := by
  cases h with
  | name below signature allowBare => exact .single (.assign _ _ _)
  | addStruct | addEnum | addRef => exact .refl

theorem Steps.changes (h : Steps kind keys nodes s s') :
    Registry.Changes s.registry s'.registry :=
  Relation.ReflTransGen.lift' State.registry (fun _ _ => Step.changes) _ _ h

end Lowering

end ResourceTypes
