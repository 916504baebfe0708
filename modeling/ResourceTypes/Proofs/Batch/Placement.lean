import ResourceTypes.Proofs.Batch.Plan

/-! # Where the files of a batch lie

All files of a batch lie below the name of its version, and the name of a kind is part of the path
of its file. Neither is checked: documents may put any text there. The files lie directly inside a
directory of the target just when the version is a name and no kind has a slash in it.
-/

namespace ResourceTypes

open Code

namespace Code

/-- Whether the path of a file is a name in a directory that is named for the version. -/
def InVersion (b : Batch) (file : OutputFile) : Prop :=
  ∃ name, Path.components file.path = [.named b.version, .named (name ++ ".rs")]

/-- The file of a resource lies below the directory of the version, perhaps not directly. -/
theorem components_resourceFile (b : Batch) (m : TypeModel) :
    Path.components (resourceFile b m).path =
      Path.components b.version ++ Path.components (moduleOf m ++ ".rs") := by
  have hchars : (moduleOf m ++ ".rs").toList =
      't' :: ("ypes_" ++ Text.lowercase m.descriptor.kind ++ ".rs").toList := by
    simp [moduleOf, Naming.moduleName]
  obtain ⟨first, rest, hpieces, hidle, hup⟩ :=
    Path.exists_pieces_of_head hchars (by decide) (by decide)
  exact Path.components_join_of_pieces b.version hpieces hidle hup

/-- A kind with a slash in it makes a path of several parts. -/
theorem components_module_ne {m : TypeModel} (h : '/' ∈ m.descriptor.kind.toList) (name : String) :
    Path.components (moduleOf m ++ ".rs") ≠ [.named name] := by
  obtain ⟨folder, last, hkind, hlast⟩ :=
    Path.exists_last_slash (Text.mem_lowercase_of_mem (by decide) h)
  have hpath : moduleOf m ++ ".rs" = "types_" ++ folder ++ "/" ++ (last ++ ".rs") := by
    rw [moduleOf, Naming.moduleName, hkind]
    simp only [String.append_assoc]
  have hfolder : ("types_" ++ folder ++ "/").toList = 't' :: ("ypes_" ++ folder ++ "/").toList := by
    simp
  obtain ⟨first, rest, hpieces, hidle, hup⟩ :=
    Path.exists_pieces_of_head hfolder (by decide) (by decide)
  obtain ⟨hpieces', hidle', hup'⟩ := (isName_file hlast).piece
  rw [hpath, Path.components_append_slash _ hpieces' hidle' hup',
    Path.components_of_pieces hpieces hidle hup, (isName_file hlast).components,
    List.filterMap_cons_some (Path.component_of_name hidle hup)]
  simp

end Code

variable {options : Options} {definitions : List Definition} {b : Batch}

theorem forall_kind_iff (h : (compileBatch options definitions).batch = .ok b) (P : String → Prop) :
    (∀ m ∈ b.resources, P m.descriptor.kind) ↔ ∀ d ∈ definitions, P d.kind := by
  have hmap := List.forall_mem_map (f := fun m : TypeModel => m.descriptor.kind)
    (l := b.resources) (P := P)
  rw [← hmap, map_kind_resources h, List.forall_mem_map]

/-- The files of a batch lie in a directory named for the version just when the version is a name
and no kind has a slash in it, and then they lie in that directory of whatever target they are
written to. -/
theorem files_in_version (h : (compileBatch options definitions).batch = .ok b) :
    ((∀ file ∈ files b, InVersion b file) ↔
        Path.IsName b.version ∧ ∀ d ∈ definitions, '/' ∉ d.kind.toList) ∧
      ((∀ file ∈ files b, InVersion b file) → ∀ target, ∀ file ∈ files b, ∃ name,
        Path.components (Path.join target file.path) =
          Path.components target ++ [.named b.version, .named (name ++ ".rs")]) := by
  have hkinds := forall_kind_iff h ('/' ∉ ·.toList)
  refine ⟨⟨fun hfiles => ?_, fun ⟨hversion, hslash⟩ => ?_⟩, fun hfiles target file hfile => ?_⟩
  · rw [files_eq] at hfiles
    simp only [List.forall_mem_append, List.forall_mem_map, List.forall_mem_singleton] at hfiles
    obtain ⟨⟨hresources, name, hinfo⟩, -⟩ := hfiles
    have hversion : Path.components b.version = [.named b.version] := by
      simp only [infoFile] at hinfo
      rw [components_pathOf b (by decide)] at hinfo
      have hfront := congrArg List.dropLast hinfo
      rwa [List.dropLast_concat] at hfront
    refine ⟨Path.components_eq_self_iff.mp hversion, hkinds.mp fun m hm hslash => ?_⟩
    obtain ⟨name, hname⟩ := hresources m hm
    rw [components_resourceFile, hversion] at hname
    exact components_module_ne hslash _ (List.cons.inj hname).2
  · have hversion := hversion.components
    have hmodule : ∀ name, '/' ∉ name.toList → ∀ contents, InVersion b ⟨pathOf b name, contents⟩ :=
      fun name hname contents => ⟨name, by simp only [components_pathOf b hname, hversion]; rfl⟩
    rw [files_eq]
    simp only [List.forall_mem_append, List.forall_mem_map, List.forall_mem_singleton]
    exact ⟨⟨fun m hm => hmodule _ (not_mem_moduleOf (by decide) (hkinds.mpr hslash m hm)) _,
      hmodule _ (by decide) _⟩, hmodule _ (by decide) _⟩
  · obtain ⟨name, hname⟩ := hfiles file hfile
    exact ⟨name, by rw [Path.components_join_of_named target hname, hname]⟩

/-- Two resources of one version, whose name is a word. -/
theorem sampleDefinitions_in_version :
    ∃ b, (compileBatch ⟨none, false⟩ sampleDefinitions).batch = .ok b ∧ Path.IsName b.version ∧
      (∀ d ∈ sampleDefinitions, '/' ∉ d.kind.toList) ∧ ∀ file ∈ files b, InVersion b file ∧
        ∃ name, Path.components (Path.join "./out" file.path) =
          [.here, .named "out", .named b.version, .named (name ++ ".rs")] := by
  have hversion : (compileBatch ⟨none, false⟩ sampleDefinitions).batch.toOption.map (·.version) =
      some "v1" := by
    decide +kernel
  have hkinds : ∀ d ∈ sampleDefinitions, '/' ∉ d.kind.toList := by decide
  obtain ⟨b, hb, hv⟩ := exists_batch hversion
  have hname : Path.IsName b.version := by
    rw [hv]
    decide
  obtain ⟨hiff, htarget⟩ := files_in_version hb
  have hfiles := hiff.mpr ⟨hname, hkinds⟩
  exact ⟨b, hb, hname, hkinds, fun file hf => ⟨hfiles file hf, htarget hfiles "./out" file hf⟩⟩

def rootedVersion : List Definition :=
  [.single "Widget" "widgets" "shop.io" "/v1"
    (.mk none (.object [("spec", .mk none .intOrString)] none false))]

/-- The files of this version lie outside of every target. -/
theorem rootedVersion_leaves_target :
    ∃ b, (compileBatch ⟨none, false⟩ rootedVersion).batch = .ok b ∧ ∃ file ∈ files b,
      Path.isAbsolute file.path = true ∧ ¬InVersion b file ∧
        ∀ target, Path.join target file.path = file.path := by
  have hversion : (compileBatch ⟨none, false⟩ rootedVersion).batch.toOption.map (·.version) =
      some "/v1" := by
    decide +kernel
  obtain ⟨b, hb, hv⟩ := exists_batch hversion
  have hpath : (modFile b).path = "/v1/mod.rs" := by
    have hjoin : Path.join "/v1" ("mod" ++ ".rs") = "/v1/mod.rs" := by decide
    rw [← hjoin, ← hv]
    rfl
  refine ⟨b, hb, modFile b, by simp [files_eq], by rw [hpath]; decide, fun ⟨name, hname⟩ => ?_,
    fun target => ?_⟩
  · have hroot : Path.components "/v1/mod.rs" = [.root, .named "v1", .named "mod.rs"] := by decide
    rw [hpath, hroot] at hname
    cases hname
  · rw [hpath, Path.join, if_pos (by simp)]

end ResourceTypes
