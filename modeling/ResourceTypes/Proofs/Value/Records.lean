import ResourceTypes.Proofs.Value.Reading

/-! # Fields of records that are read

A record of a document is filled field by field. What holds of it may depend on the fields that were
set so far and on the values that the mapping has for them, and in the end every field that the
mapping has was set.
-/

namespace ResourceTypes

/-- Whether a mapping has a value under a name. Tags are of no account. -/
def Value.Has (record : Value) (name : String) (value : Value) : Prop :=
  ∃ entries key, record.untag = .map entries ∧ (key, value) ∈ entries ∧ key.untag = .str name

namespace Reading

theorem document_fieldName {fields : List String} {key : Value} {name : String} :
    Reading.document.fieldName fields key = .ok (some name) ↔
      key.untag = .str name ∧ name ∈ fields := by
  unfold fieldName
  cases key.untag with
  | str text =>
      by_cases h : text ∈ fields
      · simp only [if_pos h, Except.ok.injEq, Option.some.injEq, Value.str.injEq]
        exact ⟨fun he => ⟨he, he ▸ h⟩, fun he => he.1⟩
      · simp only [if_neg h, Except.ok.injEq, reduceCtorEq, Value.str.injEq, false_iff, not_and]
        rintro rfl
        exact h
  | _ => simp [document, refuse, ReadResult.within]

end Reading

namespace ReadResult.Ensures

variable {σ : Type} {fields : List String} {set : σ → String → Value → ReadResult σ}
  {P : List String → σ → Prop}

/-- The induction is on the entries, with the fields that were set before. -/
theorem fillSeen {entries : List (Value × Value)}
    (hset : ∀ seen draft name key value, (key, value) ∈ entries → key.untag = .str name →
      name ∈ fields → P seen draft → (set draft name value).Ensures (P (name :: seen)))
    {seen : List String} {draft : σ} (hd : P seen draft) :
    (Reading.document.fill fields set seen draft entries).Ensures fun result =>
      ∃ all, P all result ∧ seen ⊆ all ∧
        ∀ entry ∈ entries, ∀ name ∈ fields, entry.1.untag = .str name → name ∈ all := by
  induction entries generalizing seen draft with
  | nil => exact ok ⟨seen, hd, List.Subset.refl seen, by simp⟩
  | cons entry rest ih =>
      obtain ⟨key, value⟩ := entry
      have hrest := fun seen draft name k v hm =>
        hset seen draft name k v (List.mem_cons_of_mem _ hm)
      unfold Reading.fill
      refine .bind (P := fun found => Reading.document.fieldName fields key = .ok found)
        (fun _ h => h) fun found hname => ?_
      cases found with
      | none =>
          intro result hresult
          obtain ⟨all, hall, hseen, hmem⟩ := ih hrest hd result hresult
          refine ⟨all, hall, hseen, List.forall_mem_cons.mpr ⟨fun name hn hk => ?_, hmem⟩⟩
          cases hname.symm.trans (Reading.document_fieldName.mpr ⟨hk, hn⟩)
      | some name =>
          obtain ⟨hkey, hfield⟩ := Reading.document_fieldName.mp hname
          by_cases hs : name ∈ seen
          · simp only [hs, if_true]
            exact error _
          · simp only [hs, if_false]
            have hnext := hset seen draft name key value List.mem_cons_self hkey hfield hd
            refine .bind (hnext.within _) fun draft' hd' result hresult => ?_
            obtain ⟨all, hall, hseen, hmem⟩ := ih hrest hd' result hresult
            obtain ⟨hnew, hold⟩ := List.cons_subset.mp hseen
            refine ⟨all, hall, hold, List.forall_mem_cons.mpr ⟨fun other _ hk => ?_, hmem⟩⟩
            cases hkey.symm.trans hk
            exact hnew

theorem recordSeen {name : String} {v : Value}
    (hset : ∀ seen draft name value, name ∈ fields → v.Has name value → P seen draft →
      (set draft name value).Ensures (P (name :: seen)))
    {draft : σ} (hd : P [] draft) :
    (Reading.document.record name fields set draft v).Ensures fun result =>
      ∃ all, P all result ∧ ∀ name ∈ fields, ∀ value, v.Has name value → name ∈ all := by
  unfold Reading.record
  cases hv : v.untag with
  | map entries =>
      have hentry := fun seen draft name key value hm hk hn =>
        hset seen draft name value hn ⟨entries, key, hv, hm, hk⟩
      intro result hresult
      obtain ⟨all, hall, -, hmem⟩ := fillSeen hentry hd result hresult
      refine ⟨all, hall, fun name hn value => ?_⟩
      rintro ⟨entries', key, hv', hm, hk⟩
      cases hv.symm.trans hv'
      exact hmem (key, value) hm name hn hk
  | null =>
      refine ok ⟨[], hd, fun name _ value => ?_⟩
      rintro ⟨entries, key, hv', -⟩
      cases hv.symm.trans hv'
  | _ => exact error _

end ReadResult.Ensures

end ResourceTypes
