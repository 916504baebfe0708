import ResourceTypes.Proofs.Batch.Scope

/-! # Declared and imported names

A file declares its root, its list and its nested types, each under a name of its own. Nested types
keep clear of every identifier that a file may import. Kinds and list kinds come from the
definitions and are taken before the imported identifiers are, so nothing keeps them apart.
-/

namespace ResourceTypes

open Lowering Compilation

namespace Code

/-- The identifiers that a line brings in: the words behind its last colon. -/
def usedIdents (line : String) : List String :=
  let tail := (line.toList.reverse.takeWhile (· ≠ ':')).reverse
  ((tail.splitOnP fun c => !c.isAlphanum).filter (· ≠ [])).map String.ofList

def importedIdents (m : TypeModel) : List String :=
  ((resourceLines m).filter isUse).flatMap usedIdents

theorem usedIdents_external (e : External) : usedIdents (useLine e.path) = [e.ident] := by
  cases e <;> decide

theorem usedIdents_map : usedIdents (useLine mapPath) = ["BTreeMap"] := by decide

theorem usedIdents_serde : usedIdents (useLine serdePath) = ["Deserialize", "Serialize"] := by
  decide

theorem usedIdents_siblings : usedIdents (useLine siblingsPath) = [] := by decide

theorem mem_importedIdents {m : TypeModel} {name : String} :
    name ∈ importedIdents m ↔ (m.types.any TypeRef.hasMapping = true ∧ name = "BTreeMap") ∨
      (∃ e ∈ m.imports, e.ident = name) ∨ name ∈ ["Deserialize", "Serialize"] := by
  rw [importedIdents, filter_isUse_resourceLines, List.flatMap_map, List.mem_flatMap]
  constructor
  · rintro ⟨path, hpath, hname⟩
    rcases mem_usePaths.mp hpath with ⟨hmap, rfl⟩ | ⟨e, he, rfl⟩ | rfl | ⟨-, rfl⟩
    · rw [usedIdents_map, List.mem_singleton] at hname
      exact .inl ⟨hmap, hname⟩
    · rw [usedIdents_external, List.mem_singleton] at hname
      exact .inr (.inl ⟨e, he, hname.symm⟩)
    · rw [usedIdents_serde] at hname
      exact .inr (.inr hname)
    · rw [usedIdents_siblings] at hname
      exact (List.not_mem_nil hname).elim
  · rintro (⟨hmap, rfl⟩ | ⟨e, he, rfl⟩ | hname)
    · exact ⟨mapPath, mapPath_mem_usePaths.mpr hmap, by simp [usedIdents_map]⟩
    · exact ⟨e.path, externalPath_mem_usePaths.mpr he, by simp [usedIdents_external]⟩
    · exact ⟨serdePath, mem_usePaths.mpr (.inr (.inr (.inl rfl))), by rwa [usedIdents_serde]⟩

/-- Whatever a file brings in is taken before any type is named. -/
theorem importedIdents_subset (m : TypeModel) : importedIdents m ⊆ importedNames := by
  intro name hname
  rcases mem_importedIdents.mp hname with ⟨-, rfl⟩ | ⟨e, -, rfl⟩ | hname
  · decide
  · cases e <;> decide
  · have hprelude : ∀ name ∈ ["Deserialize", "Serialize"], name ∈ importedNames := by decide
    exact hprelude name hname

theorem declaration_names (m : TypeModel) :
    (declarations m).map Declaration.name =
      m.root.name :: m.descriptor.listKind :: m.nestedNames := by
  have hstruct : ∀ s : StructType, (Declaration.struct s.name).name = s.name := fun _ => rfl
  have henum : ∀ e : EnumType, (declarationOf e).name = e.name := by
    intro e
    unfold declarationOf
    split <;> rfl
  simp only [declarations, List.map_append, List.map_cons, List.map_map, Function.comp_def, hstruct,
    henum]
  rfl

end Code

open Code

namespace Compilation.Accepted

variable {options : Options} {definitions : List Definition} {b : Batch} {stages : List Stage}
  {m : TypeModel}

theorem root_name (h : Accepted options definitions b stages) (hm : m ∈ b.resources) :
    m.root.name = m.descriptor.kind := by
  obtain ⟨g, -, rfl, r, ho⟩ := h.exists_stage_of_mem hm
  rw [TypeModel.finish_root, TypeModel.finish_descriptor, ho.rootName, ho.descriptor]

theorem root_name_mem (h : Accepted options definitions b stages) (hm : m ∈ b.resources) :
    m.root.name ∈ definitions.map (·.kind) := by
  rw [← h.rootNames_eq]
  exact List.mem_map_of_mem hm

theorem list_name_mem (h : Accepted options definitions b stages) (hm : m ∈ b.resources) :
    m.descriptor.listKind ∈ definitions.map (·.listKind) := by
  rw [← h.listNames_eq]
  exact List.mem_map_of_mem hm

/-- The declared names of a file are distinct. -/
theorem declaration_names_nodup (h : Accepted options definitions b stages)
    (hm : m ∈ b.resources) : ((declarations m).map Declaration.name).Nodup := by
  obtain ⟨hnested, hfresh⟩ := h.nestedNames_fresh
  have hroot := h.root_name_mem hm
  have hlist := h.list_name_mem hm
  have hne : m.root.name ≠ m.descriptor.listKind :=
    (List.nodup_append.mp h.typeNames_nodup).2.2 _ hroot _ hlist
  have hnot : ∀ name ∈ typeNames definitions, name ∉ m.nestedNames := fun name hname hn =>
    hfresh name (List.mem_flatMap.mpr ⟨m, hm, hn⟩) (mem_startRegistry.mpr (.inr hname))
  rw [declaration_names, List.nodup_cons, List.nodup_cons, List.mem_cons, not_or]
  exact ⟨⟨hne, hnot _ (List.mem_append_left _ hroot)⟩, hnot _ (List.mem_append_right _ hlist),
    (List.nodup_flatMap.mp hnested).1 m hm⟩

/-- No nested type of a file has the name of something that the file brings in. -/
theorem nested_not_imported (h : Accepted options definitions b stages) (hm : m ∈ b.resources) :
    ∀ name ∈ m.nestedNames, name ∉ importedIdents m := fun name hn hi =>
  h.nestedNames_fresh.2 name (List.mem_flatMap.mpr ⟨m, hm, hn⟩)
    (mem_startRegistry.mpr (.inl (importedIdents_subset m hi)))

/-- Every file brings in both sorts of metadata. -/
theorem metadata_imported (h : Accepted options definitions b stages) (hm : m ∈ b.resources) :
    "ObjectMeta" ∈ importedIdents m ∧ "ListMeta" ∈ importedIdents m := by
  have hobject : External.objectMeta ∈ m.imports := (h.mem_imports hm).mpr (.inl rfl)
  have hlist : External.listMeta ∈ m.imports := (h.mem_imports hm).mpr (.inr (.inl rfl))
  exact ⟨mem_importedIdents.mpr (.inr (.inl ⟨_, hobject, rfl⟩)),
    mem_importedIdents.mpr (.inr (.inl ⟨_, hlist, rfl⟩))⟩

end Compilation.Accepted

/-- The lines of a file that declare a type are those of its root, its list and its nested types,
and their names are distinct. One of them is imported by the same file just when the kind or the
list kind is, which nothing excludes. -/
theorem file_declarations {options : Options} {definitions : List Definition} {b : Batch}
    (h : (compileBatch options definitions).batch = .ok b) {m : TypeModel} (hm : m ∈ b.resources) :
    (resourceLines m).filter isDeclaration = (declarations m).map Declaration.line ∧
      ((declarations m).map Declaration.name).Nodup ∧
      ((∃ d ∈ declarations m, d.name ∈ importedIdents m) ↔
        m.descriptor.kind ∈ importedIdents m ∨ m.descriptor.listKind ∈ importedIdents m) := by
  obtain ⟨stages, ha⟩ := exists_stages h
  refine ⟨filter_isDeclaration_resourceLines m, ha.declaration_names_nodup hm, ?_⟩
  have hnames : (∃ d ∈ declarations m, d.name ∈ importedIdents m) ↔
      ∃ name ∈ (declarations m).map Declaration.name, name ∈ importedIdents m := by
    simp
  have hnested : ¬∃ name ∈ m.nestedNames, name ∈ importedIdents m := by
    rintro ⟨name, hn, hi⟩
    exact ha.nested_not_imported hm name hn hi
  rw [hnames, declaration_names, ha.root_name hm]
  simp [hnested]

/-- The files of the sample declare nothing that they import. -/
theorem sampleDefinitions_file_declarations :
    ∃ b, (compileBatch ⟨none, true⟩ sampleDefinitions).batch = .ok b ∧
      ∀ m ∈ b.resources, ¬∃ d ∈ declarations m, d.name ∈ importedIdents m := by
  have hkinds : ∀ name ∈ sampleDefinitions.map (·.kind), name ∉ importedNames := by decide
  have hlists : ∀ name ∈ sampleDefinitions.map (·.listKind), name ∉ importedNames := by decide
  obtain ⟨b, hb⟩ := sampleDefinitions_accepted true
  obtain ⟨stages, ha⟩ := exists_stages hb
  refine ⟨b, hb, fun m hm hclash => ?_⟩
  rcases (file_declarations hb hm).2.2.mp hclash with hi | hi
  · have hkind := hkinds _ (ha.root_name_mem hm)
    rw [ha.root_name hm] at hkind
    exact hkind (importedIdents_subset m hi)
  · exact hlists _ (ha.list_name_mem hm) (importedIdents_subset m hi)

def metadataKind : List Definition :=
  [.single "ObjectMeta" "objectmetas" "shop.io" "v1"
    (.mk none (.object [("spec", .mk none .intOrString)] none false))]

/-- The file of this kind both imports and declares the name. -/
theorem metadataKind_declares_import :
    ∃ b, (compileBatch ⟨none, false⟩ metadataKind).batch = .ok b ∧ ∃ m ∈ b.resources,
      "use k8s_openapi::apimachinery::pkg::apis::meta::v1::ObjectMeta;" ∈ resourceLines m ∧
      "pub struct ObjectMeta \x7b" ∈ resourceLines m ∧
      ∃ d ∈ declarations m, d.name ∈ importedIdents m := by
  have hkind : (compileBatch ⟨none, false⟩ metadataKind).batch.toOption.map
      (fun b => (b.resources[0]?).map (·.root.name)) = some (some "ObjectMeta") := by
    decide +kernel
  obtain ⟨b, hb, hroot⟩ := exists_batch hkind
  obtain ⟨m, hm, hname⟩ := Option.map_eq_some_iff.mp hroot
  obtain ⟨stages, ha⟩ := exists_stages hb
  have hmem := List.mem_of_getElem? hm
  have himport : External.objectMeta ∈ m.imports := (ha.mem_imports hmem).mpr (.inl rfl)
  have huse : useLine External.objectMeta.path ∈ resourceLines m :=
    useLine_mem_resourceLines.mpr (externalPath_mem_usePaths.mpr himport)
  have hdeclared : .struct "ObjectMeta" ∈ declarations m := by
    rw [← hname]
    exact List.mem_cons_self
  have hline : Declaration.line (.struct "ObjectMeta") ∈
      (resourceLines m).filter isDeclaration := by
    rw [filter_isDeclaration_resourceLines]
    exact List.mem_map_of_mem hdeclared
  exact ⟨b, hb, m, hmem, huse, (List.mem_filter.mp hline).1, _, hdeclared,
    (ha.metadata_imported hmem).1⟩

end ResourceTypes
