import ResourceTypes.Proofs.Batch.Acceptance
import ResourceTypes.Proofs.Batch.Constants
import ResourceTypes.Proofs.Batch.Identifiers
import ResourceTypes.Proofs.Code.Plan

/-! # Line breaks in names

Joined words have no line breaks, and neither have digests and numbers, so the kinds and list kinds
of a batch are the only names that can bring one into it. Where they do not, the lines of each file
are those that were written.
-/

namespace ResourceTypes

open Code Compilation Naming

/-- Whether no kind and no list kind of a batch has a line break in it. -/
def Batch.UnbrokenKinds (b : Batch) : Prop :=
  ∀ m ∈ b.resources, Unbroken m.descriptor.kind ∧ Unbroken m.descriptor.listKind

theorem Naming.Spelled.unbroken {s : String} (h : Spelled s) : Unbroken s := fun hm =>
  absurd (h _ hm) (by decide)

theorem unbroken_camelFrom (start : Bool) (cs : List Char) :
    Unbroken (String.ofList (camelFrom start cs)) := by
  rw [Unbroken, String.toList_ofList]
  exact fun hm => absurd (Text.mem_of_mem_camelFrom (by decide) hm).2 (by decide)

theorem unbroken_constantSuffix (v : Json) : Unbroken (constantSuffix v) := by
  unfold constantSuffix
  split
  · decide
  · decide
  · exact unbroken_camelFrom true _

/-- The name of an enumeration is all that its constants have from elsewhere. -/
theorem Code.Numbered.unbroken {e : EnumType} (h : Numbered e) (hname : Unbroken e.name) :
    ∀ c ∈ e.constants, Unbroken c.name := by
  obtain ⟨literals, hconstants⟩ := h
  intro c hc
  obtain ⟨k, hnumbered⟩ := enumConstants_numbered (hconstants ▸ hc)
  obtain ⟨word, number, hparts, hword, hnumber⟩ := numbered_constantBase_cases e.name c.value k
  rw [hnumbered, hparts]
  refine (hname.append ?_).append ?_
  · rcases hword with ⟨rfl, -⟩ | ⟨-, rfl⟩
    · exact unbroken_constantSuffix c.value
    · decide
  · rcases hnumber with rfl | ⟨n, -, rfl⟩
    · decide
    · exact unbroken_natChars n

variable {options : Options} {definitions : List Definition} {b : Batch} {m : TypeModel}

/-- Kinds without line breaks leave every name of the batch without any. -/
theorem unbrokenNames (h : (compileBatch options definitions).batch = .ok b)
    (hkinds : b.UnbrokenKinds) (hm : m ∈ b.resources) : UnbrokenNames m := by
  obtain ⟨stages, ha⟩ := exists_stages h
  have hdefinitions : ∀ d ∈ definitions, Unbroken d.kind := by
    intro d hd
    have hmem : d.kind ∈ b.resources.map (·.root.name) := by
      rw [ha.rootNames_eq]
      exact List.mem_map_of_mem hd
    obtain ⟨m, hm, hkind⟩ := List.mem_map.mp hmem
    rw [← hkind, root_name_eq ha hm]
    exact (hkinds m hm).1
  have hnested : ∀ m ∈ b.resources, ∀ name ∈ m.nestedNames, Unbroken name := fun m hm name hn =>
    ha.of_nested Unbroken.append Spelled.unbroken
      (fun d hd => ⟨hdefinitions d hd, unbroken_camelFrom true _⟩)
      (fun _ _ => unbroken_camelFrom true _) hm hn
  have hdefined : ∀ name ∈ m.definedNames, Unbroken name := by
    refine List.forall_mem_cons.mpr ⟨?_, hnested m hm⟩
    rw [root_name_eq ha hm]
    exact (hkinds m hm).1
  refine ⟨(hkinds m hm).1, (hkinds m hm).2, hdefined, ?_, ?_⟩
  · intro type ht name hn
    rcases List.mem_append.mp ht with ht | ht
    · obtain ⟨field, hf, rfl⟩ := List.mem_map.mp ht
      rcases names_of_field h hm hf hn with ⟨m', hm', hmem⟩ | href
      · exact hnested m' hm' name hmem
      · obtain ⟨pointer, -, rfl⟩ := ha.refs_target hm href
        exact unbroken_camelFrom true _
    · obtain ⟨e, he, rfl⟩ := List.mem_map.mp ht
      obtain ⟨scalar, format, hbase⟩ := ha.enum_base hm he
      rw [hbase, Lowering.scalarType_names] at hn
      cases hn
  · intro e he
    have hname : e.name ∈ m.nestedNames := List.mem_append_right _ (List.mem_map_of_mem he)
    exact (ha.enum_numbered hm he).unbroken (hnested m hm e.name hname)

/-- The lines of the file of a resource are those that were written for it. -/
theorem linesOf_resourceFile (h : (compileBatch options definitions).batch = .ok b)
    (hkinds : b.UnbrokenKinds) (hm : m ∈ b.resources) :
    linesOf (resourceFile b m).contents = resourceLines m ++ [""] := by
  rw [resourceFile_contents]
  exact (unbrokenNames h hkinds hm).linesOf_resourceLines

end ResourceTypes
