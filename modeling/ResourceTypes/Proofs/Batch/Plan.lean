import ResourceTypes.Proofs.Batch.Breaks

/-! # Files that fit together

The files of a batch are computed from it one by one: the file of each resource, the one about group
and version, and the one that declares the modules. They fit together because the compiler refuses
kinds that share a name or a module. Modules are folded kinds, so this check, and not that of the
names, is what keeps the files apart.
-/

namespace ResourceTypes

open Compilation

namespace Code

/-- The modules of the files of a batch other than the one that declares them. -/
def moduleNames (b : Batch) : List String :=
  b.resources.map moduleOf ++ [infoModule]

def kindEntries (b : Batch) : List (String × String) :=
  b.resources.map fun m => (m.descriptor.kind, m.descriptor.plural)

/-- Whether the files of a batch agree with each other. -/
structure ClosedPlan (b : Batch) : Prop where
  /-- No two files have one place. -/
  paths : ((files b).map fun file => Path.components file.path).Nodup
  /-- Each other file is a module that has one line to declare it and one to export it, and nothing
  else has, unless a kind breaks such a line. -/
  modules : (∀ m ∈ b.resources, Unbroken m.descriptor.kind) →
    ∃ (others : List OutputFile) (names : List String),
      files b = others ++ [modFile b] ∧ others.map (·.path) = names.map (pathOf b) ∧ names.Nodup ∧
        ((linesOf (modFile b).contents).filter (begins "pub mod ")).Perm (names.map modLine) ∧
        ((linesOf (modFile b).contents).filter (begins "pub use ")).Perm (names.map exportLine)
  /-- The table lists each resource once, in order. -/
  table : infoFile b ∈ files b ∧ readTable (linesOf (infoFile b).contents) = some (kindEntries b) ∧
    ((kindEntries b).map (·.1)).Nodup
  /-- All files declare one version of the interface, and no other one unless a kind breaks a
  line. -/
  version : ∃ apiVersion, (linesOf (infoFile b).contents).filterMap
      (constantValue? (infoLead "API_VERSION")) = [apiVersion] ∧
    ∀ m ∈ b.resources, resourceFile b m ∈ files b ∧
      constLine "API_VERSION" apiVersion ∈ linesOf (resourceFile b m).contents ∧
      (b.UnbrokenKinds → (linesOf (resourceFile b m).contents).filterMap
        (constantValue? (implLead "API_VERSION")) = [apiVersion])

end Code

open Code

variable {options : Options} {definitions : List Definition} {b : Batch}

theorem map_kind_resources (h : (compileBatch options definitions).batch = .ok b) :
    b.resources.map (·.descriptor.kind) = definitions.map (·.kind) := by
  have hidentity := congrArg (List.map (·.kind)) (batch_identity h).2
  rwa [List.map_map, List.map_map] at hidentity

theorem kinds_nodup (h : (compileBatch options definitions).batch = .ok b) :
    (b.resources.map (·.descriptor.kind)).Nodup := by
  rw [map_kind_resources h]
  exact (List.nodup_append.mp (accepted_iff.mp ⟨b, h⟩).names).1

theorem resourceModules_nodup (h : (compileBatch options definitions).batch = .ok b) :
    (b.resources.map moduleOf).Nodup := by
  have hmodules : b.resources.map moduleOf = definitions.map fun d => Naming.moduleName d.kind := by
    have hkinds := congrArg (List.map Naming.moduleName) (map_kind_resources h)
    rwa [List.map_map, List.map_map] at hkinds
  rw [hmodules]
  exact (accepted_iff.mp ⟨b, h⟩).modules

/-- No kind folds to the name of a module that every batch has. -/
theorem moduleOf_ne {name : String} (h : begins "types_" name = false) (m : TypeModel) :
    moduleOf m ≠ name := by
  rintro rfl
  rw [moduleOf, Naming.moduleName, begins_append] at h
  cases h

theorem fileNames_nodup (h : (compileBatch options definitions).batch = .ok b) :
    (moduleNames b ++ ["mod"]).Nodup := by
  have hother : ∀ name ∈ [infoModule, "mod"], ∀ m : TypeModel, moduleOf m ≠ name := by
    intro name hname
    have hbegins : ∀ name ∈ [infoModule, "mod"], begins "types_" name = false := by decide
    exact moduleOf_ne (hbegins name hname)
  rw [moduleNames, List.append_assoc, List.nodup_append]
  refine ⟨resourceModules_nodup h, by decide, fun name hname other ho => ?_⟩
  obtain ⟨m, -, rfl⟩ := List.mem_map.mp hname
  exact hother other ho m

/-- All resources of a batch have the version of the interface that the batch has. -/
theorem apiVersion_eq (h : (compileBatch options definitions).batch = .ok b) :
    ∀ m ∈ b.resources, m.descriptor.apiVersion = infoApiVersion b := by
  have hsame : ∀ m ∈ b.resources,
      m.descriptor.group = b.group ∧ m.descriptor.version = b.version := by
    intro m hm
    have hmem : m.descriptor ∈ b.resources.map (·.descriptor) := List.mem_map_of_mem hm
    rw [(batch_identity h).2] at hmem
    obtain ⟨d, -, hd⟩ := List.mem_map.mp hmem
    rw [← hd]
    exact ⟨rfl, rfl⟩
  have heach : ∀ m ∈ b.resources, ∀ first ∈ b.resources,
      m.descriptor.apiVersion = first.descriptor.apiVersion := by
    intro m hm first hf
    obtain ⟨hgroup, hversion⟩ := hsame m hm
    obtain ⟨hgroup', hversion'⟩ := hsame first hf
    rw [Descriptor.apiVersion, Descriptor.apiVersion, hgroup, hversion, hgroup', hversion']
  intro m hm
  unfold infoApiVersion
  split
  next first rest hb => exact heach m hm first (hb ▸ List.mem_cons_self)
  next hb =>
    rw [hb] at hm
    exact (List.not_mem_nil hm).elim

theorem map_path_files (b : Batch) :
    (files b).map (·.path) = (moduleNames b ++ ["mod"]).map (pathOf b) := by
  simp [files_eq, moduleNames, resourceFile, infoFile, modFile]

theorem paths_nodup (h : (compileBatch options definitions).batch = .ok b)
    (hs : ∀ m ∈ b.resources, '/' ∉ m.descriptor.kind.toList) :
    ((files b).map fun file => Path.components file.path).Nodup := by
  have hpaths : (files b).map (fun file => Path.components file.path) =
      (moduleNames b ++ ["mod"]).map fun name => Path.components (pathOf b name) := by
    have hmap := congrArg (List.map Path.components) (map_path_files b)
    rwa [List.map_map, List.map_map] at hmap
  have hslash : ∀ name ∈ moduleNames b ++ ["mod"], '/' ∉ name.toList := by
    simp only [moduleNames, List.forall_mem_append, List.forall_mem_map, List.forall_mem_singleton]
    exact ⟨⟨fun m hm => not_mem_moduleOf (by decide) (hs m hm), by decide⟩, by decide⟩
  rw [hpaths]
  refine (fileNames_nodup h).map_on fun name hname other hother heq => ?_
  rw [components_pathOf b (hslash name hname), components_pathOf b (hslash other hother)] at heq
  simpa using heq

/-- The files of a batch agree with each other: every one has a place of its own, the modules are
just the other files, and what is said about group, version and kinds is what the resources say. -/
theorem output_plan_closed (h : (compileBatch options definitions).batch = .ok b)
    (hs : ∀ m ∈ b.resources, '/' ∉ m.descriptor.kind.toList) : ClosedPlan b where
  paths := paths_nodup h hs
  modules hkinds := by
    have hothers : (b.resources.map (resourceFile b) ++ [infoFile b]).map (·.path) =
        (moduleNames b).map (pathOf b) := by
      simp [moduleNames, resourceFile, infoFile]
    obtain ⟨hmods, hexports⟩ := filter_modLines b
    have hlines : linesOf (modFile b).contents = modLines b ++ [""] := linesOf_modLines hkinds
    refine ⟨_, moduleNames b, files_eq b, hothers, (List.nodup_append.mp (fileNames_nodup h)).1,
      ?_, ?_⟩
    · have hend : [""].filter (begins "pub mod ") = [] := by decide
      rw [hlines, List.filter_append, hmods, hend, List.append_nil]
      exact (modules_perm b).map modLine
    · have hend : [""].filter (begins "pub use ") = [] := by decide
      rw [hlines, List.filter_append, hexports, hend, List.append_nil]
      exact (modules_perm b).map exportLine
  table := by
    refine ⟨by simp [files_eq], ?_, ?_⟩
    · rw [infoFile, linesOf_infoLines]
      exact readTable_infoLines b [""]
    · rw [kindEntries, List.map_map]
      exact kinds_nodup h
  version := by
    refine ⟨infoApiVersion b, ?_, fun m hm => ⟨?_, ?_, fun hkinds => ?_⟩⟩
    · have hend : constantValue? (infoLead "API_VERSION") "" = none := by decide
      rw [infoFile, linesOf_infoLines, List.filterMap_append, constantValue_infoLines,
        List.filterMap_cons_none hend, List.filterMap_nil, List.append_nil]
    · rw [files_eq, List.append_assoc]
      exact List.mem_append_left _ (List.mem_map_of_mem hm)
    · rw [← apiVersion_eq h m hm]
      exact constLine_mem_linesOf b m
    · have hend : constantValue? (implLead "API_VERSION") "" = none := by decide
      rw [linesOf_resourceFile h hkinds hm, List.filterMap_append, constantValue_resourceLines,
        List.filterMap_cons_none hend, List.filterMap_nil, List.append_nil, apiVersion_eq h m hm]

/-- Two resources, whose kinds are words. -/
theorem sampleDefinitions_plan_closed :
    ∃ b, (compileBatch ⟨none, true⟩ sampleDefinitions).batch = .ok b ∧
      (∀ m ∈ b.resources, '/' ∉ m.descriptor.kind.toList) ∧ b.UnbrokenKinds ∧ ClosedPlan b := by
  have hwords : ∀ d ∈ sampleDefinitions,
      '/' ∉ d.kind.toList ∧ Unbroken d.kind ∧ Unbroken d.listKind := by
    decide
  obtain ⟨b, hb⟩ := sampleDefinitions_accepted true
  have hdefinition : ∀ m ∈ b.resources, ∃ d ∈ sampleDefinitions,
      m.descriptor.kind = d.kind ∧ m.descriptor.listKind = d.listKind := by
    intro m hm
    have hmem : m.descriptor ∈ b.resources.map (·.descriptor) := List.mem_map_of_mem hm
    rw [(batch_identity hb).2] at hmem
    obtain ⟨d, hd, hidentity⟩ := List.mem_map.mp hmem
    rw [← hidentity]
    exact ⟨d, hd, rfl, rfl⟩
  have hs : ∀ m ∈ b.resources, '/' ∉ m.descriptor.kind.toList := by
    intro m hm
    obtain ⟨d, hd, hkind, -⟩ := hdefinition m hm
    exact hkind ▸ (hwords d hd).1
  have hunbroken : b.UnbrokenKinds := by
    intro m hm
    obtain ⟨d, hd, hkind, hlist⟩ := hdefinition m hm
    exact ⟨hkind ▸ (hwords d hd).2.1, hlist ▸ (hwords d hd).2.2⟩
  exact ⟨b, hb, hs, hunbroken, output_plan_closed hb hs⟩

def moduleKind : String :=
  "A;\npub mod evil"

theorem moduleKind_modules :
    ∃ b, (compileBatch ⟨none, false⟩ [.single moduleKind "as" "shop.io" "v1"
          (.mk none (.object [] none false))]).batch = .ok b ∧
      (∀ m ∈ b.resources, '/' ∉ m.descriptor.kind.toList) ∧
      modLine "evil" ∈ linesOf (modFile b).contents ∧
      pathOf b "evil" ∉ (files b).map (·.path) := by
  have hbatch : (compileBatch ⟨none, false⟩ [.single moduleKind "as" "shop.io" "v1"
      (.mk none (.object [] none false))]).batch.toOption.map (fun b =>
        (b.version, b.resources.map (·.descriptor.kind), moduleNames b)) =
      some ("v1", [moduleKind], ["types_a;\npub mod evil", "group_version_info"]) := by
    decide +kernel
  obtain ⟨b, hb, hparts⟩ := exists_batch hbatch
  obtain ⟨hversion, hparts⟩ := Prod.mk.inj hparts
  obtain ⟨hkinds, hmodules⟩ := Prod.mk.inj hparts
  refine ⟨b, hb, fun m hm => ?_, ?_, ?_⟩
  · have hkind : m.descriptor.kind ∈ [moduleKind] := hkinds ▸ List.mem_map_of_mem hm
    rw [List.mem_singleton.mp hkind]
    decide
  · have hmodule : "types_a;\npub mod evil" ∈ modules b := by
      rw [(modules_perm b).mem_iff, ← moduleNames, hmodules]
      exact List.mem_cons_self
    have hline : modLine "types_a;\npub mod evil" ∈ modLines b := by
      rw [modLines_eq]
      simp only [List.mem_append, List.mem_map]
      exact .inl (.inl (.inr ⟨_, hmodule, rfl⟩))
    exact mem_linesOf_textOf hline (by decide +kernel)
  · have hother : ∀ name ∈ ["types_a;\npub mod evil", "group_version_info"] ++ ["mod"],
        Path.join "v1" (name ++ ".rs") ≠ Path.join "v1" ("evil" ++ ".rs") := by
      decide +kernel
    rw [map_path_files, hmodules, List.mem_map]
    rintro ⟨name, hname, hpath⟩
    rw [pathOf, pathOf, hversion] at hpath
    exact hother name hname hpath

end ResourceTypes
