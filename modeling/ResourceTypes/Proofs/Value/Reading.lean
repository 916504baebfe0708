import ResourceTypes.Proofs.Json.Canonical
import ResourceTypes.Value.Reading

/-! # What readings ensure

A property of what is read holds as soon as every step of the reading keeps it. Objects that are
read set their keys one after the other, so every key of a JSON value that is read comes once.
-/

namespace ResourceTypes

/-! ## Keys that are set -/

namespace Keyed

variable {α : Type}

theorem mem_set {key : String} {value : α} {fields : List (String × α)} {field : String × α}
    (h : field ∈ set key value fields) : field = (key, value) ∨ field ∈ fields := by
  induction fields with
  | nil => exact .inl (List.mem_singleton.mp h)
  | cons first rest ih =>
      obtain ⟨k, v⟩ := first
      unfold set at h
      by_cases hk : k = key
      · rw [if_pos hk] at h
        rcases List.mem_cons.mp h with rfl | h
        · exact .inl (by rw [hk])
        · exact .inr (List.mem_cons_of_mem _ h)
      · rw [if_neg hk] at h
        rcases List.mem_cons.mp h with rfl | h
        · exact .inr List.mem_cons_self
        · exact (ih h).imp id (List.mem_cons_of_mem _)

theorem set_nodup {fields : List (String × α)} (h : (fields.map (·.1)).Nodup) (key : String)
    (value : α) : ((set key value fields).map (·.1)).Nodup := by
  induction fields with
  | nil => simp [set]
  | cons first rest ih =>
      obtain ⟨k, v⟩ := first
      rw [List.map_cons, List.nodup_cons] at h
      unfold set
      by_cases hk : k = key
      · rw [if_pos hk]
        exact List.nodup_cons.mpr h
      · rw [if_neg hk]
        refine List.nodup_cons.mpr ⟨?_, ih h.2⟩
        intro hm
        obtain ⟨field, hf, hfk⟩ := List.mem_map.mp hm
        rcases mem_set hf with rfl | hf
        · exact hk hfk.symm
        · exact h.1 (List.mem_map.mpr ⟨field, hf, hfk⟩)

end Keyed

/-! ## Readings -/

def ReadResult.Ensures {α : Type} (result : ReadResult α) (P : α → Prop) : Prop :=
  ∀ x, result = .ok x → P x

namespace ReadResult.Ensures

variable {α β σ : Type} {P Q : α → Prop}

theorem ok {x : α} (h : P x) : Ensures (.ok x) P := by
  intro y hy
  cases hy
  exact h

theorem error (e : ReadError) : Ensures (.error e) P := by
  intro x h
  cases h

theorem trivial (result : ReadResult α) : result.Ensures fun _ => True :=
  fun _ _ => True.intro

theorem bind {result : ReadResult α} {next : α → ReadResult β} {R : β → Prop}
    (h : result.Ensures P) (hn : ∀ x, P x → (next x).Ensures R) : (result >>= next).Ensures R := by
  cases hr : result with
  | error e => exact error e
  | ok x => exact hn x (h x hr)

theorem within {result : ReadResult α} (h : result.Ensures P) (step : PathStep) :
    (ReadResult.within step result).Ensures P := by
  cases hr : result with
  | error e => exact error _
  | ok x => exact ok (h x hr)

theorem optional {read : Value → ReadResult α} {v : Value} (h : (read v).Ensures P) :
    (Reading.optional read v).Ensures fun found => ∀ x ∈ found, P x := by
  intro found hf
  unfold Reading.optional at hf
  split at hf
  next =>
    cases hf
    simp
  next =>
    cases hr : read v with
    | error e =>
        rw [hr] at hf
        cases hf
    | ok x =>
        rw [hr] at hf
        cases hf
        intro y hy
        exact Option.some.inj hy ▸ h x hr

theorem items {read : Value → ReadResult α} {values : List Value}
    (h : ∀ v ∈ values, (read v).Ensures P) (index : Nat) :
    (Reading.items read index values).Ensures fun xs => ∀ x ∈ xs, P x := by
  induction values generalizing index with
  | nil => exact ok (by simp)
  | cons v rest ih =>
      unfold Reading.items
      refine .bind ((h v List.mem_cons_self).within _) fun x hx => ?_
      refine .bind (ih (fun w hw => h w (List.mem_cons_of_mem v hw)) _) fun xs hxs => ?_
      exact ok (List.forall_mem_cons.mpr ⟨hx, hxs⟩)

theorem sequence {r : Reading} {read : Value → ReadResult α} {v : Value}
    (h : ∀ v, (read v).Ensures P) : (r.sequence read v).Ensures fun xs => ∀ x ∈ xs, P x := by
  unfold Reading.sequence
  split
  next values _ => exact items (fun v _ => h v) 0
  next =>
    split
    · exact ok (by simp)
    · exact error _
  next => exact error _

theorem fill {r : Reading} {fields : List String}
    {set : σ → String → Value → ReadResult σ} {P : σ → Prop}
    (h : ∀ draft name v, P draft → (set draft name v).Ensures P) (seen : List String) {draft : σ}
    (hd : P draft) (entries : List (Value × Value)) :
    (r.fill fields set seen draft entries).Ensures P := by
  induction entries generalizing seen draft with
  | nil => exact ok hd
  | cons entry rest ih =>
      obtain ⟨k, v⟩ := entry
      unfold Reading.fill
      refine .bind (trivial _) fun found _ => ?_
      cases found with
      | none => exact ih seen hd
      | some name =>
          by_cases hs : name ∈ seen
          · simp only [hs, if_true]
            exact error _
          · simp only [hs, if_false]
            exact .bind ((h draft name v hd).within _) fun draft hd => ih _ hd

/-- A record has a property that it has without fields and that every field keeps. -/
theorem record {r : Reading} {name : String} {fields : List String}
    {set : σ → String → Value → ReadResult σ} {P : σ → Prop}
    (h : ∀ draft name v, P draft → (set draft name v).Ensures P) {draft : σ} (hd : P draft)
    (v : Value) : (r.record name fields set draft v).Ensures P := by
  unfold Reading.record
  split
  next entries _ => exact fill h [] hd entries
  next =>
    split
    · exact ok hd
    · exact error _
  next => exact error _

end ReadResult.Ensures

/-! ## JSON values -/

namespace Json

theorem uniqueKeysFields_iff {fields : List (String × Json)} :
    UniqueKeysFields fields ↔ ∀ field ∈ fields, field.2.UniqueKeys := by
  induction fields with
  | nil => simp [UniqueKeysFields]
  | cons field fields ih => simp [UniqueKeysFields, ih]

mutual

theorem uniqueKeys_canonical : ∀ {v : Json}, v.UniqueKeys → v.canonical.UniqueKeys
  | .null, _ => trivial
  | .bool _, _ => trivial
  | .num _, _ => trivial
  | .str _, _ => trivial
  | .arr _, h => uniqueKeysItems_canonical h
  | .obj fields, h => by
      have hp := Keyed.sort_perm (canonicalFields fields)
      refine ⟨?_, uniqueKeysFields_iff.mpr fun field hf => ?_⟩
      · rw [(hp.map _).nodup_iff, keys_canonicalFields]
        exact h.1
      · have hv := uniqueKeysFields_canonical h.2
        exact uniqueKeysFields_iff.mp hv field (hp.mem_iff.mp hf)

theorem uniqueKeysItems_canonical :
    ∀ {items : List Json}, UniqueKeysItems items → UniqueKeysItems (canonicalItems items)
  | [], _ => trivial
  | _ :: _, h => ⟨uniqueKeys_canonical h.1, uniqueKeysItems_canonical h.2⟩

theorem uniqueKeysFields_canonical :
    ∀ {fields : List (String × Json)}, UniqueKeysFields fields →
      UniqueKeysFields (canonicalFields fields)
  | [], _ => trivial
  | (_, _) :: _, h => ⟨uniqueKeys_canonical h.1, uniqueKeysFields_canonical h.2⟩

end

end Json

mutual

theorem Reading.anyJson_uniqueKeys (r : Reading) :
    ∀ v : Value, (r.anyJson v).Ensures Json.UniqueKeys
  | .null => .ok trivial
  | .bool _ => .ok trivial
  | .int _ => .ok trivial
  | .real (.finite _) => .ok trivial
  | .real .nan => .ok trivial
  | .real (.infinite _) => .ok trivial
  | .str _ => .ok trivial
  | .seq items => by
      rw [Reading.anyJson]
      exact .bind (Reading.jsonItems_uniqueKeys r 0 items) fun xs hxs => .ok hxs
  | .map entries => by
      rw [Reading.anyJson]
      exact .bind (Reading.jsonFields_uniqueKeys r .firstKey [] ⟨.nil, trivial⟩ entries)
        fun fields hf => .ok hf
  | .tagged _ _ => .error _

theorem Reading.jsonItems_uniqueKeys (r : Reading) (index : Nat) :
    ∀ items : List Value, (Reading.jsonItems r index items).Ensures Json.UniqueKeysItems
  | [] => .ok trivial
  | v :: rest => by
      rw [Reading.jsonItems]
      refine .bind ((Reading.anyJson_uniqueKeys r v).within _) fun x hx => ?_
      exact .bind (Reading.jsonItems_uniqueKeys r (index + 1) rest) fun xs hxs => .ok ⟨hx, hxs⟩

theorem Reading.jsonFields_uniqueKeys (r : Reading) (wanted : Wanted)
    (fields : List (String × Json)) (h : Json.UniqueKeys (.obj fields)) :
    ∀ entries : List (Value × Value), (Reading.jsonFields r wanted fields entries).Ensures
      fun result => Json.UniqueKeys (.obj result)
  | [] => .ok h
  | (k, v) :: rest => by
      rw [Reading.jsonFields]
      refine .bind (.trivial _) fun name _ => ?_
      refine .bind ((Reading.anyJson_uniqueKeys r v).within _) fun x hx => ?_
      refine Reading.jsonFields_uniqueKeys r .string _ ⟨Keyed.set_nodup h.1 name x, ?_⟩ rest
      rw [Json.uniqueKeysFields_iff]
      intro field hf
      rcases Keyed.mem_set hf with rfl | hf
      · exact hx
      · exact Json.uniqueKeysFields_iff.mp h.2 field hf

end

end ResourceTypes
