import Mathlib.Data.List.Forall2
import ResourceTypes.Proofs.Definition.Versions

/-! # The definitions of a source

A document fails when its text is not well formed, or when it is a definition that cannot be read.
The first failure decides, at its place among all documents. Without one there is a definition for
each document that is one, in their order, and nothing else counts but that there is any.
-/

namespace ResourceTypes.Definition

/-- Whether a document has a value, which can be read if it is a definition. -/
def Readable (document : Option Value) : Prop :=
  ∃ v, document = some v ∧ (isDefinition v = true → ∃ d, read .document v = .ok d)

/-- How a document at an index of a source fails. -/
inductive Fails (source : String) (index : Nat) : Option Value → DefinitionError → Prop
  | text : Fails source index none (.malformedText source index)
  | content {v : Value} {e : ReadError} (hv : isDefinition v = true)
      (he : read .document v = .error e) :
      Fails source index (some v) (.malformedContent source index e)

def definitionsAmong (documents : List (Option Value)) : List Value :=
  (documents.filterMap id).filter isDefinition

/-- Whether definitions are what documents hold, one for each. -/
def ReadsAll (documents : List Value) (definitions : List Definition) : Prop :=
  List.Forall₂ (fun v d => read .document v = .ok d) documents definitions

variable {source : String}

theorem readable_or_fails (source : String) (index : Nat) (document : Option Value) :
    Readable document ∨ ∃ error, Fails source index document error := by
  cases document with
  | none => exact .inr ⟨_, .text⟩
  | some v =>
      by_cases hv : isDefinition v = true
      · cases hr : read .document v with
        | error e => exact .inr ⟨_, .content hv hr⟩
        | ok d => exact .inl ⟨v, rfl, fun _ => ⟨d, hr⟩⟩
      · exact .inl ⟨v, rfl, fun h => absurd h hv⟩

theorem Fails.not_readable {index : Nat} {document : Option Value} {error : DefinitionError}
    (h : Fails source index document error) : ¬Readable document := by
  rintro ⟨v, rfl, hread⟩
  cases h with
  | content hv he =>
      obtain ⟨d, hd⟩ := hread hv
      cases he.symm.trans hd

/-! ## The documents from an index on -/

section Steps

variable {index : Nat} {v : Value} {rest : List (Option Value)}

theorem ofDocumentsFrom_foreign (hv : ¬isDefinition v = true) :
    ofDocumentsFrom source index (some v :: rest) = ofDocumentsFrom source (index + 1) rest := by
  rw [ofDocumentsFrom, if_neg hv]

theorem ofDocumentsFrom_read (hv : isDefinition v = true) {d : Definition}
    (hd : read .document v = .ok d) :
    ofDocumentsFrom source index (some v :: rest) =
      (ofDocumentsFrom source (index + 1) rest).map (d :: ·) := by
  rw [ofDocumentsFrom, if_pos hv, hd]
  cases ofDocumentsFrom source (index + 1) rest <;> rfl

theorem ofDocumentsFrom_fails {document : Option Value} {error : DefinitionError}
    (h : Fails source index document error) :
    ofDocumentsFrom source index (document :: rest) = .error error := by
  cases h with
  | text => rfl
  | content hv he => rw [ofDocumentsFrom, if_pos hv, he]

/-- What can be read leaves it to the rest to fail. -/
theorem ofDocumentsFrom_readable_error {document : Option Value} (h : Readable document)
    {error : DefinitionError} :
    ofDocumentsFrom source index (document :: rest) = .error error ↔
      ofDocumentsFrom source (index + 1) rest = .error error := by
  obtain ⟨v, rfl, hread⟩ := h
  by_cases hv : isDefinition v = true
  · obtain ⟨d, hd⟩ := hread hv
    rw [ofDocumentsFrom_read hv hd]
    cases ofDocumentsFrom source (index + 1) rest <;> simp [Except.map]
  · rw [ofDocumentsFrom_foreign hv]

end Steps

theorem definitionsAmong_read {v : Value} (hv : isDefinition v = true)
    (rest : List (Option Value)) :
    definitionsAmong (some v :: rest) = v :: definitionsAmong rest := by
  simp [definitionsAmong, hv]

theorem definitionsAmong_foreign {v : Value} (hv : ¬isDefinition v = true)
    (rest : List (Option Value)) : definitionsAmong (some v :: rest) = definitionsAmong rest := by
  simp [definitionsAmong, hv]

/-! ## All documents -/

theorem ofDocumentsFrom_eq_ok_iff {index : Nat} {documents : List (Option Value)}
    {definitions : List Definition} :
    ofDocumentsFrom source index documents = .ok definitions ↔
      (∀ document ∈ documents, Readable document) ∧
        ReadsAll (definitionsAmong documents) definitions := by
  induction documents generalizing index definitions with
  | nil => simp [ofDocumentsFrom, definitionsAmong, ReadsAll, eq_comm]
  | cons document rest ih =>
      rw [List.forall_mem_cons]
      rcases readable_or_fails source index document with h | ⟨error, he⟩
      · obtain ⟨v, rfl, hread⟩ := id h
        rw [and_iff_right h]
        by_cases hv : isDefinition v = true
        · obtain ⟨d, hd⟩ := hread hv
          rw [ofDocumentsFrom_read hv hd, definitionsAmong_read hv, ReadsAll,
            List.forall₂_cons_left_iff]
          constructor
          · intro hok
            cases hl : ofDocumentsFrom source (index + 1) rest with
            | error error =>
                rw [hl] at hok
                cases hok
            | ok later =>
                rw [hl] at hok
                cases hok
                obtain ⟨hrest, hlater⟩ := ih.mp hl
                exact ⟨hrest, d, later, hd, hlater, rfl⟩
          · rintro ⟨hrest, other, later, ho, hlater, rfl⟩
            cases hd.symm.trans ho
            rw [ih.mpr ⟨hrest, hlater⟩]
            rfl
        · rw [ofDocumentsFrom_foreign hv, definitionsAmong_foreign hv, ih]
      · rw [ofDocumentsFrom_fails he]
        simp [he.not_readable]

/-- The first failure among documents from an index on. -/
def FirstFailure (source : String) (index : Nat) (documents : List (Option Value))
    (error : DefinitionError) : Prop :=
  ∃ before document after, documents = before ++ document :: after ∧
    (∀ other ∈ before, Readable other) ∧ Fails source (index + before.length) document error

theorem ofDocumentsFrom_eq_error_iff {index : Nat} {documents : List (Option Value)}
    {error : DefinitionError} :
    ofDocumentsFrom source index documents = .error error ↔
      FirstFailure source index documents error := by
  constructor
  · intro h
    induction documents generalizing index with
    | nil => cases h
    | cons document rest ih =>
        rcases readable_or_fails source index document with hr | ⟨other, ho⟩
        · obtain ⟨before, failing, after, rfl, hbefore, hfails⟩ :=
            ih ((ofDocumentsFrom_readable_error hr).mp h)
          refine ⟨document :: before, failing, after, rfl,
            List.forall_mem_cons.mpr ⟨hr, hbefore⟩, ?_⟩
          rwa [List.length_cons, Nat.add_comm before.length, ← Nat.add_assoc]
        · rw [ofDocumentsFrom_fails ho, Except.error.injEq] at h
          exact ⟨[], document, rest, rfl, by simp, h ▸ ho⟩
  · rintro ⟨before, document, after, rfl, hbefore, hfails⟩
    induction before generalizing index with
    | nil => exact ofDocumentsFrom_fails hfails
    | cons first before ih =>
        rw [List.forall_mem_cons] at hbefore
        rw [List.length_cons, Nat.add_comm before.length, ← Nat.add_assoc] at hfails
        exact (ofDocumentsFrom_readable_error hbefore.1).mpr (ih hbefore.2 hfails)

/-! ## The whole source -/

theorem mem_definitionsAmong {documents : List (Option Value)} {v : Value} :
    v ∈ definitionsAmong documents ↔ some v ∈ documents ∧ isDefinition v = true := by
  simp [definitionsAmong]

theorem forall_readable_iff {documents : List (Option Value)} :
    (∀ document ∈ documents, Readable document) ↔
      none ∉ documents ∧ ∀ v ∈ definitionsAmong documents, ∃ d, read .document v = .ok d := by
  constructor
  · intro h
    refine ⟨fun hnone => ?_, fun v hv => ?_⟩
    · obtain ⟨v, hv, -⟩ := h none hnone
      cases hv
    · obtain ⟨hmem, hdefinition⟩ := mem_definitionsAmong.mp hv
      obtain ⟨w, hw, hread⟩ := h (some v) hmem
      cases hw
      exact hread hdefinition
  · rintro ⟨hnone, hread⟩ document hd
    cases document with
    | none => exact absurd hd hnone
    | some v => exact ⟨v, rfl, fun hv => hread v (mem_definitionsAmong.mpr ⟨hd, hv⟩)⟩

theorem exists_readsAll_iff {documents : List Value} :
    (∃ definitions, ReadsAll documents definitions) ↔
      ∀ v ∈ documents, ∃ d, read .document v = .ok d := by
  induction documents with
  | nil => exact iff_of_true ⟨[], .nil⟩ (by simp)
  | cons v rest ih =>
      rw [List.forall_mem_cons, ← ih]
      constructor
      · rintro ⟨definitions, hd | ⟨hd, hrest⟩⟩
        exact ⟨⟨_, hd⟩, _, hrest⟩
      · rintro ⟨⟨d, hd⟩, definitions, hrest⟩
        exact ⟨d :: definitions, .cons hd hrest⟩

theorem ReadsAll.eq_nil_iff {documents : List Value} {definitions : List Definition}
    (h : ReadsAll documents definitions) : definitions = [] ↔ documents = [] := by
  cases h <;> simp

theorem ofDocuments_of_error {documents : List (Option Value)} {error : DefinitionError}
    (h : ofDocumentsFrom source 0 documents = .error error) :
    ofDocuments source documents = .error error := by
  rw [ofDocuments, h]
  rfl

theorem ofDocuments_of_ok {documents : List (Option Value)} {definitions : List Definition}
    (h : ofDocumentsFrom source 0 documents = .ok definitions) :
    ofDocuments source documents =
      if definitions = [] then .error (.noDefinition source) else .ok definitions := by
  rw [ofDocuments, h]
  cases definitions <;> rfl

theorem ofDocuments_eq_ok_iff {documents : List (Option Value)} {definitions : List Definition} :
    ofDocuments source documents = .ok definitions ↔
      (∀ document ∈ documents, Readable document) ∧
        ReadsAll (definitionsAmong documents) definitions ∧ definitionsAmong documents ≠ [] := by
  rw [← and_assoc, ← @ofDocumentsFrom_eq_ok_iff source 0]
  cases h : ofDocumentsFrom source 0 documents with
  | error error => simp [ofDocuments_of_error h]
  | ok found =>
      have hnil := (ofDocumentsFrom_eq_ok_iff.mp h).2.eq_nil_iff
      rw [ofDocuments_of_ok h, Ne, ← hnil, Except.ok.injEq]
      split
      next he => simp [he]
      next he => simp [he]

/-- Only a source that does not fail otherwise is refused for holding no definition. -/
theorem ofDocuments_eq_error_iff {documents : List (Option Value)} {error : DefinitionError} :
    ofDocuments source documents = .error error ↔
      FirstFailure source 0 documents error ∨
        (∀ document ∈ documents, Readable document) ∧ definitionsAmong documents = [] ∧
          error = .noDefinition source := by
  cases h : ofDocumentsFrom source 0 documents with
  | error found =>
      obtain ⟨before, document, after, hsplit, -, hfails⟩ := ofDocumentsFrom_eq_error_iff.mp h
      have hno : ¬∀ document ∈ documents, Readable document := fun hall =>
        hfails.not_readable (hall document (by simp [hsplit]))
      rw [ofDocuments_of_error h, ← ofDocumentsFrom_eq_error_iff, h]
      simp [hno]
  | ok found =>
      obtain ⟨hall, hread⟩ := ofDocumentsFrom_eq_ok_iff.mp h
      rw [ofDocuments_of_ok h, ← ofDocumentsFrom_eq_error_iff, h, ← hread.eq_nil_iff,
        and_iff_right hall]
      by_cases he : found = [] <;> simp [he, eq_comm]

/-- A source gives one definition for each of its documents that is one, in their order, if there is
such a document, all of them can be read and every text is well formed. Documents that are no
definitions add nothing and take nothing away. Otherwise the first document that fails is reported
with its index among all documents, and only without such a document that there is no definition. -/
theorem definitions_of_source (source : String) (documents : List (Option Value)) :
    ((∃ definitions, ofDocuments source documents = .ok definitions) ↔
      none ∉ documents ∧ (∀ v ∈ definitionsAmong documents, ∃ d, read .document v = .ok d) ∧
        definitionsAmong documents ≠ []) ∧
    (∀ definitions, ofDocuments source documents = .ok definitions →
      ReadsAll (definitionsAmong documents) definitions) ∧
    (∀ before v after, documents = before ++ some v :: after → isDefinition v = false →
      ∀ definitions, ofDocuments source documents = .ok definitions ↔
        ofDocuments source (before ++ after) = .ok definitions) ∧
    ∀ error, ofDocuments source documents = .error error ↔
      FirstFailure source 0 documents error ∨
        (∀ document ∈ documents, Readable document) ∧ definitionsAmong documents = [] ∧
          error = .noDefinition source := by
  refine ⟨?_, fun definitions h => (ofDocuments_eq_ok_iff.mp h).2.1, ?_,
    fun error => ofDocuments_eq_error_iff⟩
  · simp only [ofDocuments_eq_ok_iff, exists_and_left, exists_and_right, exists_readsAll_iff,
      forall_readable_iff, and_assoc, and_self_left]
  · rintro before v after rfl hv definitions
    have hforeign : definitionsAmong (before ++ some v :: after) =
        definitionsAmong (before ++ after) := by
      simp [definitionsAmong, hv]
    have hreadable : Readable (some v) := ⟨v, rfl, fun h => absurd h (ne_true_of_eq_false hv)⟩
    rw [ofDocuments_eq_ok_iff, ofDocuments_eq_ok_iff, hforeign]
    simp [hreadable, or_imp, forall_and]

def mixedDocuments : List (Option Value) :=
  [some (.map [(.str "kind", .str "ConfigMap")]), some revisedDocument]

/-- The document of another kind counts for the index of a failure and for nothing else. -/
theorem mixedDocuments_definitions :
    (∃ definitions, ofDocuments "widgets.yaml" mixedDocuments = .ok definitions ∧
      ReadsAll [revisedDocument] definitions ∧
      ofDocuments "widgets.yaml" [some revisedDocument] = .ok definitions) ∧
    ofDocuments "widgets.yaml" (mixedDocuments ++ [none]) =
      .error (.malformedText "widgets.yaml" 2) := by
  have hamong : definitionsAmong mixedDocuments = [revisedDocument] := rfl
  obtain ⟨d, hd, -⟩ := read_revisedDocument
  have hall : ∀ v ∈ definitionsAmong mixedDocuments, ∃ d, read .document v = .ok d := by
    rw [hamong]
    exact List.forall_mem_singleton.mpr ⟨d, hd⟩
  have hnone : none ∉ mixedDocuments := by simp [mixedDocuments]
  have hmixed := definitions_of_source "widgets.yaml" mixedDocuments
  refine ⟨?_, ?_⟩
  · obtain ⟨definitions, hok⟩ := hmixed.1.mpr ⟨hnone, hall, by simp [hamong]⟩
    exact ⟨definitions, hok, hamong ▸ hmixed.2.1 definitions hok,
      (hmixed.2.2.1 [] _ [some revisedDocument] rfl rfl definitions).mp hok⟩
  · refine ((definitions_of_source _ _).2.2.2 _).mpr (.inl ⟨mixedDocuments, none, [], rfl, ?_, ?_⟩)
    · exact forall_readable_iff.mpr ⟨hnone, hall⟩
    · exact .text

end ResourceTypes.Definition
