import Mathlib.Data.List.Induction
import ResourceTypes.Lowering.Compilation
import ResourceTypes.Proofs.Sorted

/-! # Names and modules that come again

Definitions conflict when a type name comes again, or else when a module does. Both scans look for
the first value whose key has been seen, and they end without one just when all keys are distinct.
-/

namespace ResourceTypes.Compilation

/-! ## Repeated keys -/

/-- The first of some values whose key is that of an earlier one, with the earlier one. -/
def FirstRepeat {α : Type} (key : α → String) (values : List α) (earlier later : α) : Prop :=
  ∃ before after, values = before ++ later :: after ∧ (before.map key).Nodup ∧
    earlier ∈ before ∧ key earlier = key later

/-- Values with distinct keys have no value whose key comes again. -/
theorem FirstRepeat.not_nodup {α : Type} {key : α → String} {values : List α} {x y : α}
    (h : FirstRepeat key values x y) : ¬(values.map key).Nodup := by
  obtain ⟨before, after, rfl, -, hx, hkey⟩ := h
  rw [List.map_append, List.map_cons, List.nodup_append]
  rintro ⟨-, -, hne⟩
  exact hne (key x) (List.mem_map_of_mem hx) (key y) List.mem_cons_self hkey

theorem exists_firstRepeat {α : Type} (key : α → String) {values : List α}
    (h : ¬(values.map key).Nodup) : ∃ x y, FirstRepeat key values x y := by
  induction values using List.reverseRecOn with
  | nil => simp at h
  | append_singleton values y ih =>
      by_cases hd : (values.map key).Nodup
      · have hmem : key y ∈ values.map key := by
          by_contra hn
          apply h
          rw [List.map_append, List.map_singleton, ← List.concat_eq_append]
          exact hd.concat hn
        obtain ⟨x, hx, hkey⟩ := List.mem_map.mp hmem
        exact ⟨x, y, values, [], rfl, hd, hx, hkey⟩
      · obtain ⟨x, z, before, after, rfl, hbefore, hx, hkey⟩ := ih hd
        exact ⟨x, z, before, after ++ [y], by simp, hbefore, hx, hkey⟩

def repeatFrom? {α : Type} (key : α → String) (seen : List α) : List α → Option (α × α)
  | [] => none
  | y :: rest =>
    match seen.find? (key · = key y) with
    | some x => some (x, y)
    | none => repeatFrom? key (y :: seen) rest

/-- What was seen has distinct keys, and the latest of it stands in front. -/
theorem repeatFrom_eq_some_iff {α : Type} {key : α → String} {seen values : List α}
    (hd : (seen.map key).Nodup) {x y : α} :
    repeatFrom? key seen values = some (x, y) ↔ ∃ before after, values = before ++ y :: after ∧
      ((before.reverse ++ seen).map key).Nodup ∧ x ∈ before.reverse ++ seen ∧ key x = key y := by
  induction values generalizing seen with
  | nil => simp [repeatFrom?]
  | cons head rest ih =>
      unfold repeatFrom?
      split
      next found hfound =>
        have hkey : key found = key head := by simpa using List.find?_some hfound
        have hmem := List.mem_of_find?_eq_some hfound
        rw [Option.some.injEq, Prod.mk.injEq]
        constructor
        · rintro ⟨rfl, rfl⟩
          exact ⟨[], rest, rfl, hd, hmem, hkey⟩
        · rintro ⟨before, after, heq, hb, hx, hxy⟩
          cases before with
          | nil =>
              cases heq
              exact ⟨List.inj_on_of_nodup_map hd hmem hx (hkey.trans hxy.symm), rfl⟩
          | cons other before =>
              cases heq
              rw [List.reverse_cons, List.append_assoc, List.map_append, List.nodup_append] at hb
              have hnot := (List.nodup_cons.mp hb.2.1).1
              exact (hnot (List.mem_map.mpr ⟨found, hmem, hkey⟩)).elim
      next hnone =>
        have hnot : ∀ x ∈ seen, key x ≠ key head := by simpa using hnone
        have hhead : key head ∉ seen.map key := by simpa using hnot
        have hseen : ((head :: seen).map key).Nodup := List.nodup_cons.mpr ⟨hhead, hd⟩
        rw [ih hseen]
        constructor
        · rintro ⟨before, after, rfl, hb, hx, hxy⟩
          exact ⟨head :: before, after, rfl, by simpa using hb, by simpa using hx, hxy⟩
        · rintro ⟨before, after, heq, hb, hx, hxy⟩
          cases before with
          | nil =>
              cases heq
              exact (hnot x hx hxy).elim
          | cons other before =>
              cases heq
              exact ⟨before, after, rfl, by simpa using hb, by simpa using hx, hxy⟩

theorem repeatFrom_nil_eq_some_iff {α : Type} {key : α → String} {values : List α} {x y : α} :
    repeatFrom? key [] values = some (x, y) ↔ FirstRepeat key values x y := by
  rw [repeatFrom_eq_some_iff (by simp)]
  simp only [List.append_nil, List.map_reverse, List.nodup_reverse, List.mem_reverse]
  rfl

theorem repeatFrom_nil_eq_none_iff {α : Type} {key : α → String} {values : List α} :
    repeatFrom? key [] values = none ↔ (values.map key).Nodup := by
  constructor
  · intro h
    by_contra hd
    obtain ⟨x, y, hr⟩ := exists_firstRepeat key hd
    rw [repeatFrom_nil_eq_some_iff.mpr hr] at h
    cases h
  · intro hd
    cases h : repeatFrom? key [] values with
    | none => rfl
    | some found => exact ((repeatFrom_nil_eq_some_iff.mp h).not_nodup hd).elim

/-! ## Conflicts of definitions -/

variable {definitions : List Definition} {error : CompileError}

theorem firstRepeat_eq_map (seen names : List String) :
    firstRepeat? seen names = (repeatFrom? id seen names).map (·.2) := by
  induction names generalizing seen with
  | nil => rfl
  | cons name rest ih =>
      unfold firstRepeat? repeatFrom?
      split
      next hm =>
        obtain ⟨found, hf⟩ : ∃ found, seen.find? (id · = id name) = some found := by
          rw [← Option.isSome_iff_exists, List.find?_isSome]
          exact ⟨name, hm, by simp⟩
        rw [hf]
        rfl
      next hm =>
        have hf : seen.find? (id · = id name) = none := by
          simp only [List.find?_eq_none, decide_eq_true_eq]
          rintro other ho rfl
          exact hm ho
        rw [hf, ih]

theorem moduleClash_eq_map (seen rest : List Definition) :
    moduleClash? (seen.map fun d => (Naming.moduleName d.kind, d.kind)) rest =
      (repeatFrom? (fun d => Naming.moduleName d.kind) seen rest).map fun found =>
        .moduleClash found.1.kind found.2.kind (Naming.moduleName found.2.kind) := by
  have hl : ∀ (seen : List Definition) (module : String),
      (seen.map fun d => (Naming.moduleName d.kind, d.kind)).lookup module =
        (seen.find? (Naming.moduleName ·.kind = module)).map (·.kind) := by
    intro seen module
    induction seen with
    | nil => rfl
    | cons d seen ih =>
        rw [List.map_cons, List.lookup_cons, List.find?_cons, ih]
        by_cases h : Naming.moduleName d.kind = module
        · simp [h]
        · simp [h, beq_false_of_ne (Ne.symm h)]
  induction rest generalizing seen with
  | nil => rfl
  | cons d rest ih =>
      unfold moduleClash? repeatFrom?
      simp only [hl]
      cases seen.find? (Naming.moduleName ·.kind = Naming.moduleName d.kind) with
      | some found => rfl
      | none => exact ih (d :: seen)

theorem nameConflict_of_repeat {name other : String}
    (h : FirstRepeat id (typeNames definitions) other name) :
    nameConflict? definitions = some (.duplicateKind name) := by
  rw [nameConflict?, firstRepeat_eq_map, repeatFrom_nil_eq_some_iff.mpr h]
  rfl

theorem nameConflict_of_nodup (h : (typeNames definitions).Nodup) :
    nameConflict? definitions =
      (repeatFrom? (fun d => Naming.moduleName d.kind) [] definitions).map fun found =>
        .moduleClash found.1.kind found.2.kind (Naming.moduleName found.2.kind) := by
  rw [nameConflict?, firstRepeat_eq_map, repeatFrom_nil_eq_none_iff.mpr (by simpa using h)]
  exact moduleClash_eq_map [] definitions

/-- Without a conflict, the names are distinct and so are the modules. -/
theorem nameConflict_eq_none_iff : nameConflict? definitions = none ↔
    (typeNames definitions).Nodup ∧
      (definitions.map fun d => Naming.moduleName d.kind).Nodup := by
  by_cases hn : (typeNames definitions).Nodup
  · rw [nameConflict_of_nodup hn, Option.map_eq_none_iff, repeatFrom_nil_eq_none_iff]
    exact ⟨fun hm => ⟨hn, hm⟩, And.right⟩
  · obtain ⟨x, y, h⟩ := exists_firstRepeat id (by simpa using hn)
    rw [nameConflict_of_repeat h]
    simp [hn]

theorem nameConflict_eq_some_iff : nameConflict? definitions = some error ↔
    (∃ name, FirstRepeat id (typeNames definitions) name name ∧ error = .duplicateKind name) ∨
      ((typeNames definitions).Nodup ∧ ∃ first second,
        FirstRepeat (fun d => Naming.moduleName d.kind) definitions first second ∧
        error = .moduleClash first.kind second.kind (Naming.moduleName second.kind)) := by
  by_cases hn : (typeNames definitions).Nodup
  · have hnot : ∀ name, ¬FirstRepeat id (typeNames definitions) name name :=
      fun name h => h.not_nodup (by simpa using hn)
    simp only [nameConflict_of_nodup hn, Option.map_eq_some_iff, Prod.exists,
      repeatFrom_nil_eq_some_iff, hn, hnot, false_and, exists_false, false_or, true_and]
    simp only [eq_comm (a := error)]
  · obtain ⟨x, name, h⟩ := exists_firstRepeat id (by simpa using hn)
    rw [nameConflict_of_repeat h]
    simp only [Option.some.injEq, hn, false_and, or_false]
    constructor
    · rintro rfl
      obtain ⟨before, after, heq, hd, hx, hkey⟩ := h
      exact ⟨name, ⟨before, after, heq, hd, (show x = name from hkey) ▸ hx, rfl⟩, rfl⟩
    · rintro ⟨other, ho, rfl⟩
      have := nameConflict_of_repeat ho
      rw [nameConflict_of_repeat h] at this
      exact Option.some.inj this

end ResourceTypes.Compilation
