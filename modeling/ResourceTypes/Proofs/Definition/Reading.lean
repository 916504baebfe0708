import ResourceTypes.Definition.Reading
import ResourceTypes.Proofs.Schema.Reading

/-! # Definitions that are read are well-formed

Whatever a source holds, the schemas of its definitions are well-formed. Nothing but the reading of
schemas matters for it: the other fields of a definition carry no schema.
-/

namespace ResourceTypes

open ReadResult

namespace Definition

theorem readValidation_uniqueKeys (r : Reading) (v : Value) :
    (readValidation r v).Ensures fun found => ∀ fields ∈ found, fields.UniqueKeys := by
  unfold readValidation
  refine .record (fun _ _ v _ => .optional (Reading.schema_uniqueKeys v r)) ?_ v
  simp

theorem readVersion_wellFormed (r : Reading) (v : Value) :
    (readVersion r v).Ensures Version.WellFormed := by
  unfold readVersion
  refine .bind (P := fun draft => ∀ fields ∈ draft.validation.join, fields.UniqueKeys)
    (.record ?_ (by simp) v) fun draft hd => ?_
  · intro draft name v hd
    split
    · exact .bind (.trivial _) fun _ _ => .ok hd
    · exact .bind (.trivial _) fun _ _ => .ok hd
    · exact .bind (.trivial _) fun _ _ => .ok hd
    · refine .bind (.optional (readValidation_uniqueKeys r v)) fun validation h => .ok ?_
      cases validation with
      | none => simp
      | some found => exact h found rfl
  · refine .bind (.trivial _) fun name _ => .ok ?_
    intro schema hs
    obtain ⟨fields, hf, rfl⟩ := Option.map_eq_some_iff.mp hs
    exact SchemaFields.toSchema_wellFormed (hd fields hf)

theorem mem_declare {version other : Version} {versions : List Version}
    (h : other ∈ declare version versions) : other = version ∨ other ∈ versions := by
  induction versions with
  | nil => exact .inl (List.mem_singleton.mp h)
  | cons first rest ih =>
      unfold declare at h
      split at h
      · rcases List.mem_cons.mp h with rfl | h
        · exact .inl rfl
        · exact .inr (List.mem_cons_of_mem _ h)
      · rcases List.mem_cons.mp h with rfl | h
        · exact .inr List.mem_cons_self
        · exact (ih h).imp id (List.mem_cons_of_mem _)

/-- Every declared version is one of those given. -/
theorem mem_declared {version : Version} {versions : List Version}
    (h : version ∈ declared versions) : version ∈ versions := by
  have hfold : ∀ (done rest : List Version),
      version ∈ rest.foldl (fun versions v => declare v versions) done →
        version ∈ done ∨ version ∈ rest := by
    intro done rest hm
    induction rest generalizing done with
    | nil => exact .inl hm
    | cons v rest ih =>
        rcases ih (declare v done) hm with hd | hr
        · rcases mem_declare hd with rfl | hd
          · exact .inr List.mem_cons_self
          · exact .inl hd
        · exact .inr (List.mem_cons_of_mem _ hr)
  rcases hfold [] versions h with hn | hm
  · simp at hn
  · exact hm

theorem readSpec_wellFormed (r : Reading) (v : Value) :
    (readSpec r v).Ensures Definition.WellFormed := by
  unfold readSpec
  refine .bind (P := fun draft => ∀ version ∈ draft.versions, version.WellFormed)
    (.record ?_ (by simp) v) fun draft hd => ?_
  · intro draft name v hd
    split
    · exact .bind (.trivial _) fun _ _ => .ok hd
    · exact .bind (.trivial _) fun _ _ => .ok hd
    · exact .bind (.sequence fun v => readVersion_wellFormed r v) fun _ h => .ok h
  · refine .bind (.trivial _) fun group _ => .bind (.trivial _) fun names _ => .ok ?_
    intro version hv
    exact hd version (mem_declared hv)

theorem read_wellFormed (r : Reading) (v : Value) :
    (read r v).Ensures Definition.WellFormed := by
  unfold read
  refine .bind (P := fun found => ∀ d ∈ found, d.WellFormed)
    (.record ?_ (by simp) v) fun found h => ?_
  · intro _ _ v _
    refine .bind (readSpec_wellFormed r v) fun d hd => .ok ?_
    intro other ho
    exact Option.some.inj ho ▸ hd
  · cases found with
    | none => exact .error _
    | some d => exact .ok (h d rfl)

theorem ofDocumentsFrom_wellFormed {source : String} {documents : List (Option Value)}
    {index : Nat} {definitions : List Definition}
    (h : ofDocumentsFrom source index documents = .ok definitions) :
    ∀ d ∈ definitions, d.WellFormed := by
  induction documents generalizing index definitions with
  | nil =>
      cases h
      simp
  | cons document rest ih =>
      cases document with
      | none => cases h
      | some v =>
          rw [ofDocumentsFrom] at h
          split at h
          · cases hr : read .document v with
            | error e =>
                rw [hr] at h
                cases h
            | ok definition =>
                rw [hr] at h
                cases ht : ofDocumentsFrom source (index + 1) rest with
                | error e =>
                    rw [ht] at h
                    cases h
                | ok later =>
                    rw [ht] at h
                    cases h
                    exact List.forall_mem_cons.mpr
                      ⟨read_wellFormed .document v definition hr, ih ht⟩
          · exact ih h

/-- All definitions of a source are well-formed. -/
theorem ofDocuments_wellFormed {source : String} {documents : List (Option Value)}
    {definitions : List Definition} (h : ofDocuments source documents = .ok definitions) :
    ∀ d ∈ definitions, d.WellFormed := by
  unfold ofDocuments at h
  cases hf : ofDocumentsFrom source 0 documents with
  | error e =>
      rw [hf] at h
      cases h
  | ok found =>
      rw [hf] at h
      cases found with
      | nil => cases h
      | cons d rest =>
          cases h
          exact ofDocumentsFrom_wellFormed hf

end Definition

end ResourceTypes
