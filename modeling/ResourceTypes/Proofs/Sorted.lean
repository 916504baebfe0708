import Mathlib.Data.List.Nodup
import Mathlib.Data.List.Perm.Basic
import ResourceTypes.Keyed
import ResourceTypes.Model.Basic

/-! # Sorted names and sorted fields

Sorting loses nothing, and it forgets the order in which things came: names give one sorted list
just when they are the same set, and fields with distinct keys just when they are the same fields.
-/

namespace ResourceTypes

/-! ## Names -/

theorem pairwise_mergeSort_names (names : List String) :
    (names.mergeSort fun a b => decide (a ≤ b)).Pairwise (· ≤ ·) := by
  have htrans (a b c : String) (hab : decide (a ≤ b) = true) (hbc : decide (b ≤ c) = true) :
      decide (a ≤ c) = true :=
    decide_eq_true (String.le_trans (of_decide_eq_true hab) (of_decide_eq_true hbc))
  have htotal (a b : String) : (decide (a ≤ b) || decide (b ≤ a)) = true := by
    simpa using String.le_total a b
  exact (List.pairwise_mergeSort htrans htotal names).imp of_decide_eq_true

theorem pairwise_lt_eraseDups {names : List String} (h : names.Pairwise (· ≤ ·)) :
    names.eraseDups.Pairwise (· < ·) := by
  match names with
  | [] => simp
  | a :: as =>
      rw [List.eraseDups_cons, List.pairwise_cons]
      have hs := List.pairwise_cons.mp h
      have : (as.filter fun b => !b == a).length < as.length + 1 :=
        Nat.lt_succ_of_le (List.length_filter_le _ as)
      refine ⟨?_, pairwise_lt_eraseDups (hs.2.filter _)⟩
      intro b hb
      rw [List.mem_eraseDups, List.mem_filter] at hb
      rw [← String.not_le]
      intro hle
      have : b = a := String.le_antisymm hle (hs.1 b hb.1)
      simp [this] at hb
termination_by names.length

theorem mem_sortedNames {name : String} {names : List String} :
    name ∈ sortedNames names ↔ name ∈ names := by
  simp [sortedNames]

theorem pairwise_sortedNames (names : List String) : (sortedNames names).Pairwise (· < ·) :=
  pairwise_lt_eraseDups (pairwise_mergeSort_names names)

theorem eq_of_pairwise_lt {xs ys : List String} (hx : xs.Pairwise (· < ·))
    (hy : ys.Pairwise (· < ·)) (h : ∀ name, name ∈ xs ↔ name ∈ ys) : xs = ys := by
  have hp : xs.Perm ys :=
    (List.perm_ext_iff_of_nodup (hx.imp String.ne_of_lt) (hy.imp String.ne_of_lt)).mpr h
  exact hp.eq_of_pairwise (fun _ _ _ _ hab hba => (String.lt_asymm hab hba).elim) hx hy

/-- Names give the same sorted list just when they are the same set. -/
theorem sortedNames_eq_iff {xs ys : List String} :
    sortedNames xs = sortedNames ys ↔ ∀ name, name ∈ xs ↔ name ∈ ys := by
  constructor
  · intro h name
    rw [← mem_sortedNames, h, mem_sortedNames]
  · intro h
    apply eq_of_pairwise_lt (pairwise_sortedNames xs) (pairwise_sortedNames ys)
    intro name
    rw [mem_sortedNames, mem_sortedNames]
    exact h name

/-- Among things with distinct names, a name selects one. -/
theorem filter_name_eq {α : Type} {name : α → String} {xs : List α} (h : (xs.map name).Nodup)
    {x : α} (hx : x ∈ xs) : xs.filter (fun y => name y = name x) = [x] := by
  induction xs with
  | nil => simp at hx
  | cons y ys ih =>
      rw [List.map_cons, List.nodup_cons] at h
      rcases List.mem_cons.mp hx with rfl | hx
      · have hnone : ys.filter (fun y => name y = name x) = [] := by
          rw [List.filter_eq_nil_iff]
          intro y hy he
          exact h.1 (of_decide_eq_true he ▸ List.mem_map_of_mem hy)
        rw [List.filter_cons_of_pos (by simp), hnone]
      · have hne : name y ≠ name x := fun he => h.1 (he ▸ List.mem_map_of_mem hx)
        rw [List.filter_cons_of_neg (by simpa using hne)]
        exact ih h.2 hx

/-! ## Fields -/

namespace Keyed

variable {α : Type}

/-- Every key comes once, and the keys ascend. -/
def Sorted (fields : List (String × α)) : Prop :=
  (fields.map (·.1)).Pairwise (· < ·)

theorem sort_perm (fields : List (String × α)) : (sort fields).Perm fields :=
  List.mergeSort_perm fields _

theorem pairwise_sort (fields : List (String × α)) :
    (sort fields).Pairwise (fun a b => a.1 ≤ b.1) := by
  have htrans (a b c : String × α) (hab : decide (a.1 ≤ b.1) = true)
      (hbc : decide (b.1 ≤ c.1) = true) : decide (a.1 ≤ c.1) = true :=
    decide_eq_true (String.le_trans (of_decide_eq_true hab) (of_decide_eq_true hbc))
  have htotal (a b : String × α) : (decide (a.1 ≤ b.1) || decide (b.1 ≤ a.1)) = true := by
    simpa using String.le_total a.1 b.1
  exact (List.pairwise_mergeSort htrans htotal fields).imp of_decide_eq_true

theorem sort_of_sorted {fields : List (String × α)} (h : Sorted fields) : sort fields = fields := by
  apply List.mergeSort_of_pairwise
  rw [Sorted, List.pairwise_map] at h
  exact h.imp fun hlt => decide_eq_true (String.not_lt.mp (String.lt_asymm hlt))

theorem eq_of_mem_of_nodup {fields : List (String × α)} (h : (fields.map (·.1)).Nodup)
    {a b : String × α} (ha : a ∈ fields) (hb : b ∈ fields) (hk : a.1 = b.1) : a = b :=
  List.inj_on_of_nodup_map h ha hb hk

theorem mem_of_lookup {κ : Type} [BEq κ] [LawfulBEq κ] {fields : List (κ × α)} {key : κ} {value : α}
    (h : fields.lookup key = some value) : (key, value) ∈ fields := by
  obtain ⟨before, after, rfl, -⟩ := List.lookup_eq_some_iff.mp h
  exact List.mem_append_right before List.mem_cons_self

/-- Of fields with distinct keys, each is found by its key. -/
theorem lookup_eq_some_iff {κ : Type} [BEq κ] [LawfulBEq κ] {fields : List (κ × α)}
    (hd : (fields.map (·.1)).Nodup) {key : κ} {value : α} :
    fields.lookup key = some value ↔ (key, value) ∈ fields := by
  refine ⟨mem_of_lookup, fun h => ?_⟩
  cases hl : fields.lookup key with
  | none => simpa using List.lookup_eq_none_iff.mp hl _ h
  | some found =>
      have := List.inj_on_of_nodup_map hd (mem_of_lookup hl) h rfl
      rw [(Prod.mk.inj this).2]

theorem Sorted.nodup {fields : List (String × α)} (h : Sorted fields) :
    (fields.map (·.1)).Nodup :=
  h.imp String.ne_of_lt

/-- Fields with distinct keys have one sorted form, in whatever order they come. -/
theorem sort_eq_of_perm {xs ys : List (String × α)} (hd : (xs.map (·.1)).Nodup)
    (h : xs.Perm ys) : sort xs = sort ys := by
  have hp : (sort xs).Perm (sort ys) := (sort_perm xs).trans (h.trans (sort_perm ys).symm)
  refine hp.eq_of_pairwise ?_ (pairwise_sort xs) (pairwise_sort ys)
  intro a b ha hb hab hba
  have hmem : b ∈ xs := (h.trans (sort_perm ys).symm).mem_iff.mpr hb
  exact eq_of_mem_of_nodup hd ((sort_perm xs).mem_iff.mp ha) hmem (String.le_antisymm hab hba)

/-- Fields with distinct keys have one sorted form just when every key finds the same in both. -/
theorem sort_eq_iff_lookup {xs ys : List (String × α)} (hx : (xs.map (·.1)).Nodup)
    (hy : (ys.map (·.1)).Nodup) :
    sort xs = sort ys ↔ ∀ key, xs.lookup key = ys.lookup key := by
  constructor
  · intro h key
    have hp : xs.Perm ys := (sort_perm xs).symm.trans (h ▸ sort_perm ys)
    apply Option.ext
    intro value
    rw [lookup_eq_some_iff hx, lookup_eq_some_iff hy]
    exact hp.mem_iff
  · intro h
    apply sort_eq_of_perm hx
    rw [List.perm_ext_iff_of_nodup (hx.of_map _) (hy.of_map _)]
    rintro ⟨key, value⟩
    rw [← lookup_eq_some_iff hx, ← lookup_eq_some_iff hy, h]

theorem sorted_sort {fields : List (String × α)} (h : (fields.map (·.1)).Nodup) :
    Sorted (sort fields) := by
  rw [Sorted, List.pairwise_map]
  have hn : (sort fields).Pairwise (fun a b => a.1 ≠ b.1) :=
    List.pairwise_map.mp (((sort_perm fields).map Prod.fst).nodup_iff.mpr h)
  refine ((pairwise_sort fields).and hn).imp fun {a b} hab => ?_
  rw [← String.not_le]
  exact fun hba => hab.2 (String.le_antisymm hab.1 hba)

end Keyed

end ResourceTypes
