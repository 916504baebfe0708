import ResourceTypes.Proofs.Batch.Origins
import ResourceTypes.Proofs.Lowering.Soundness

/-! # Registries that callers can reach

Whatever callers do with a new registry, in whatever order, is a run of changes, so the registry is
sound at every moment. The lowering of a resource takes the resource's own names and the names of
the types that it makes, and no other: a type that it makes has a name that was free before, and its
shape had none.
-/

namespace ResourceTypes

open Lowering

namespace Naming.Registry

/-- What a caller may do with a registry. -/
inductive Operation
  | reserve (name : String)
  | assign (signature : Signature) (c : Candidates)
  | lower (schema : Schema) (d : Descriptor)
  | compile (definition : Definition) (desired : Option String)

def apply (r : Registry) : Operation → Registry
  | .reserve name => r.reserve name
  | .assign signature c => (r.assign signature c).registry
  | .lower schema d => (Lowering.lower r schema d).2
  | .compile definition desired => (compileResource r definition desired).registry

def after (r : Registry) (operations : List Operation) : Registry :=
  operations.foldl apply r

theorem changes_lower (r : Registry) (schema : Schema) (d : Descriptor) :
    Changes r (lower r schema d).2 := by
  obtain ⟨s, hsteps, hregistry, -, -⟩ := lower_steps r schema d
  have hchanges := hsteps.changes
  rw [State.start_registry, ← hregistry] at hchanges
  exact (changes_reserveAll r (ownNames d)).trans hchanges

/-- A definition is compiled by lowering the schema that is selected. -/
theorem compileResource_cases (r : Registry) (d : Definition) (desired : Option String) :
    (∃ error, (compileResource r d desired).model = .error error ∧
      (compileResource r d desired).registry = r) ∨
    ∃ schema descriptor, (compileResource r d desired).model = .ok (lower r schema descriptor).1 ∧
      (compileResource r d desired).registry = (lower r schema descriptor).2 := by
  unfold compileResource
  cases d.select desired with
  | error error => exact .inl ⟨error, rfl, rfl⟩
  | ok selected => exact .inr ⟨selected.2, d.descriptor selected.1.name, rfl, rfl⟩

theorem changes_apply (r : Registry) (operation : Operation) : Changes r (r.apply operation) := by
  cases operation with
  | reserve name => exact .single (.reserve r name)
  | assign signature c => exact .single (.assign r signature c)
  | lower schema d => exact changes_lower r schema d
  | compile definition desired =>
      rw [apply]
      rcases compileResource_cases r definition desired with ⟨_, -, h⟩ | ⟨schema, d, -, h⟩
      · rw [h]
      · rw [h]
        exact changes_lower r schema d

theorem changes_after (r : Registry) (operations : List Operation) :
    Changes r (r.after operations) := by
  induction operations generalizing r with
  | nil => exact .refl
  | cons operation operations ih => exact (changes_apply r operation).trans (ih _)

theorem sound_after (operations : List Operation) : (empty.after operations).Sound :=
  (changes_after empty operations).sound .empty

/-- What holds of a registry after any operations, and of whatever follows. Shapes with one name are
one shape, and their names are not empty and taken. Later operations lose no name and rename no
shape. A shape is named either as it was before, without any change, or by one more name that was
free; and a definition that cannot be compiled leaves everything as it was. -/
theorem reachable_registry (operations later : List Operation) :
    let r := empty.after operations
    (∀ signature other name, r.memo signature = some name → r.memo other = some name →
      signature = other) ∧
    (∀ signature name, r.memo signature = some name → name ≠ "" ∧ name ∈ r.reserved) ∧
    (∀ name ∈ r.reserved, name ∈ (r.after later).reserved) ∧
    (∀ signature name, r.memo signature = some name →
      (r.after later).memo signature = some name) ∧
    (∀ signature c, (r.assign signature c).registry.memo signature =
        some (r.assign signature c).name ∧
      ((r.assign signature c).fresh = false → (r.assign signature c).registry = r) ∧
      ((r.assign signature c).fresh = true → r.memo signature = none ∧
        (r.assign signature c).name ∉ r.reserved ∧
        (r.assign signature c).registry.reserved = (r.assign signature c).name :: r.reserved)) ∧
    ∀ definition desired error, (compileResource r definition desired).model = .error error →
      (compileResource r definition desired).registry = r := by
  intro r
  have hr : r.Sound := sound_after operations
  have hkeeps : r.Keeps (r.after later) := (changes_after r later).keeps
  refine ⟨fun _ _ _ => hr.memo_injective, fun _ _ => hr.memo_taken, fun _ hn => hkeeps.reserved hn,
    hkeeps.memo, fun signature c => ?_, fun definition desired error he => ?_⟩
  · cases hs : r.names.lookup signature with
    | some name =>
        rw [assign_of_some hs]
        exact ⟨hs, fun _ => rfl, nofun⟩
    | none =>
        rw [assign_of_none hs]
        exact ⟨memo_cons_self _ _ _ _, nofun, fun _ => ⟨hs, freeName_not_mem r c, rfl⟩⟩
  · rcases compileResource_cases r definition desired with ⟨_, -, h⟩ | ⟨_, _, h, -⟩
    · exact h
    · rw [h] at he
      cases he

end Naming.Registry

namespace Lowering

open Naming (Registry)

variable {r : Registry}

/-- The names of a resource are taken first, so taking them before makes no difference. -/
theorem lower_reserveAll (r : Registry) (schema : Schema) (d : Descriptor) :
    lower (r.reserveAll (ownNames d)) schema d = lower r schema d := by
  have hown : (r.reserveAll (ownNames d)).reserveAll (ownNames d) = r.reserveAll (ownNames d) :=
    Registry.reserveAll_of_subset fun _ hn => Registry.mem_reserveAll.mpr (.inl hn)
  rw [lower, hown, ← lower]

/-- What lowering adds to a registry: a name for each type of the model, for one shape each. -/
theorem exists_added (r : Registry) (schema : Schema) (d : Descriptor) :
    ∃ added : List (Signature × String),
      (added.map (·.2)).Perm (lower r schema d).1.nestedNames ∧
      (lower r schema d).2.names = added ++ r.names ∧
      (lower r schema d).2.reserved =
        added.map (·.2) ++ (r.reserveAll (ownNames d)).reserved := by
  have hown : ∀ name ∈ ownNames d, name ∈ (r.reserveAll (ownNames d)).reserved :=
    fun name hn => Registry.mem_reserveAll.mpr (.inl hn)
  obtain ⟨g, rfl, rfl, hg⟩ := exists_stage schema hown
  have hlowered := hg.lowered
  rw [lower_reserveAll] at hlowered
  have hnames : (g.made.map Made.entry).map (·.2) = g.made.map Made.name := by
    rw [List.map_map]
    rfl
  refine ⟨g.made.map Made.entry, ?_, ?_, ?_⟩
  · rw [hlowered, hnames]
    exact hg.nestedNames_perm.symm
  · rw [hlowered, hg.grows.names, State.start_registry, Registry.reserveAll_names]
  · rw [hlowered, hg.grows.reserved, State.start_registry, hnames]

/-- Lowering takes the names of the resource and of the types in its model and no others. The types
have distinct names that nobody held before, the resource included. One shape that had no name has
got one for each of them, and all other shapes are named as before. -/
theorem lower_names_exact (operations : List Registry.Operation) (schema : Schema)
    (d : Descriptor) :
    let r := Registry.empty.after operations
    let m := (lower r schema d).1
    let r' := (lower r schema d).2
    (∀ name, name ∈ r'.reserved ↔ name ∈ r.reserved ∨ name = d.kind ∨ name = d.listKind ∨
      name ∈ importedNames ∨ name ∈ m.nestedNames) ∧
    m.nestedNames.Nodup ∧
    (∀ name ∈ m.nestedNames, name ∉ r.reserved ∧ name ≠ d.kind ∧ name ≠ d.listKind ∧
      name ∉ importedNames) ∧
    ∃ added : List (Signature × String), (added.map (·.2)).Perm m.nestedNames ∧
      (added.map (·.1)).Nodup ∧ (∀ entry ∈ added, r.memo entry.1 = none) ∧
      ∀ signature name, r'.memo signature = some name ↔
        (signature, name) ∈ added ∨ r.memo signature = some name := by
  intro r m r'
  have hr : r.Sound := Registry.sound_after operations
  have hr' : r'.Sound := (Registry.changes_lower r schema d).sound hr
  obtain ⟨added, hperm, hnames, hreserved⟩ := exists_added r schema d
  have hown : ∀ name, name ∈ (r.reserveAll (ownNames d)).reserved ↔
      name = d.kind ∨ name = d.listKind ∨ name ∈ importedNames ∨ name ∈ r.reserved := by
    intro name
    rw [Registry.mem_reserveAll, ownNames, List.mem_cons, List.mem_cons, or_assoc, or_assoc]
  obtain ⟨hnew, -, hfresh⟩ := List.nodup_append.mp (hreserved ▸ hr'.reserved)
  obtain ⟨hsignatures, -, hunknown⟩ :=
    List.nodup_append.mp (List.map_append ▸ hnames ▸ hr'.signatures)
  refine ⟨fun name => ?_, hperm.nodup_iff.mp hnew, fun name hn => ?_, added, hperm, hsignatures,
    fun entry he => ?_, fun signature name => ?_⟩
  · rw [hreserved, List.mem_append, hperm.mem_iff, hown]
    tauto
  · have hnot : name ∉ (r.reserveAll (ownNames d)).reserved :=
      fun hm => hfresh name (hperm.mem_iff.mpr hn) name hm rfl
    rw [hown] at hnot
    tauto
  · cases hm : r.memo entry.1 with
    | none => rfl
    | some name =>
        have hold := List.mem_map_of_mem (f := (·.1)) (hr.memo_iff.mp hm)
        exact (hunknown _ (List.mem_map_of_mem he) _ hold rfl).elim
  · rw [hr'.memo_iff, hr.memo_iff, hnames, List.mem_append]

end Lowering

end ResourceTypes
