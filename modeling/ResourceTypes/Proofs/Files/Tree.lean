import ResourceTypes.Proofs.Files.Laws

/-! # File trees are file systems

A file tree obeys the laws of file systems. Its places are lists of names and whatever is outside of
it. Entries are only added, or one file takes the place of another, so a path that leads somewhere
goes on leading there.
-/

namespace ResourceTypes.FileTree

variable {tree tree' : FileTree}

def view : FileView FileTree where
  Place := FileTree.Place
  place? tree path := (tree.find path).toOption
  entry? tree place := tree.entryAt place

/-! ## Entries -/

theorem lookup_filter_ne {names other : List String} (h : other ≠ names)
    (entries : List (List String × FileEntry)) :
    (entries.filter fun e => e.1 ≠ names).lookup other = entries.lookup other := by
  induction entries with
  | nil => rfl
  | cons e entries ih =>
      by_cases hname : e.1 = names
      · have hskip : (other == e.1) = false := beq_false_of_ne (hname ▸ h)
        rw [List.filter_cons_of_neg (by simp [hname]), ih, List.lookup_cons, hskip]
      · rw [List.filter_cons_of_pos (by simp [hname]), List.lookup_cons, List.lookup_cons, ih]

theorem entry?_insert {names : List String} (hne : names ≠ []) (entry : FileEntry) :
    entry? (tree.insert names entry) names = some entry := by
  obtain ⟨first, rest, rfl⟩ := List.exists_cons_of_ne_nil hne
  simp [insert, entry?]

theorem entry?_insert_of_ne {names other : List String} (h : other ≠ names) (entry : FileEntry) :
    entry? (tree.insert names entry) other = tree.entry? other := by
  cases other with
  | nil => rfl
  | cons first rest =>
      have hskip : ((first :: rest) == names) = false := beq_false_of_ne h
      simp only [insert, entry?, List.lookup_cons, hskip, lookup_filter_ne h]

/-! ## Growth -/

/-- Whether all entries are there still, files as files and directories as directories. -/
def Grows (tree tree' : FileTree) : Prop :=
  ∀ place entry, tree.entryAt place = some entry →
    ∃ entry', tree'.entryAt place = some entry' ∧ (entry = .directory ↔ entry' = .directory)

theorem Grows.directory (h : Grows tree tree') {place : Place}
    (hd : tree.entryAt place = some .directory) : tree'.entryAt place = some .directory := by
  obtain ⟨entry, hentry, hiff⟩ := h place _ hd
  rw [hentry, hiff.mp rfl]

theorem grows_insert {names : List String} {entry : FileEntry}
    (h : ∀ old, tree.entry? names = some old → (old = .directory ↔ entry = .directory))
    (hne : names ≠ []) : Grows tree (tree.insert names entry) := by
  intro place old hold
  cases place with
  | none => exact ⟨old, hold, Iff.rfl⟩
  | some other =>
      by_cases ho : other = names
      · subst ho
        exact ⟨entry, entry?_insert hne entry, h old hold⟩
      · exact ⟨old, (entry?_insert_of_ne ho entry).trans hold, Iff.rfl⟩

def next? (place : Place) (step : String) : Option Place :=
  if step = "." then some place
  else if step = ".." then some (outer place)
  else place.map fun names => some (names ++ [step])

theorem next?_name {names : List String} {step : String} (hdot : step ≠ ".") (hup : step ≠ "..") :
    next? (some names) step = some (some (names ++ [step])) := by
  rw [next?, if_neg hdot, if_neg hup, Option.map_some]

theorem walk_nil_iff {place place' : Place} :
    tree.walk place [] = .ok place' ↔ (tree.entryAt place).isSome ∧ place = place' := by
  rw [walk]
  split <;> simp [*]

theorem walk_cons_iff {place place' : Place} {step : String} {rest : List String} :
    tree.walk place (step :: rest) = .ok place' ↔ tree.entryAt place = some .directory ∧
      ∃ next, next? place step = some next ∧ tree.walk next rest = .ok place' := by
  cases place
  all_goals
    rw [walk, next?]
    split
    · simp [*]
    · simp [*]
    · split
      · simp [*]
      split
      · simp [*]
      · simp [*]

theorem walk_append {place place' place'' : Place} {before after : List String}
    (h : tree.walk place before = .ok place') (hafter : tree.walk place' after = .ok place'') :
    tree.walk place (before ++ after) = .ok place'' := by
  induction before generalizing place with
  | nil =>
      obtain ⟨-, rfl⟩ := walk_nil_iff.mp h
      exact hafter
  | cons step rest ih =>
      obtain ⟨hd, next, hnext, hrest⟩ := walk_cons_iff.mp h
      exact walk_cons_iff.mpr ⟨hd, next, hnext, ih hrest⟩

theorem Grows.walk (h : Grows tree tree') {place place' : Place} {steps : List String}
    (hwalk : tree.walk place steps = .ok place') : tree'.walk place steps = .ok place' := by
  induction steps generalizing place with
  | nil =>
      obtain ⟨hsome, rfl⟩ := walk_nil_iff.mp hwalk
      obtain ⟨entry, hentry⟩ := Option.isSome_iff_exists.mp hsome
      obtain ⟨entry', hentry', -⟩ := h place entry hentry
      exact walk_nil_iff.mpr ⟨by rw [hentry']; rfl, rfl⟩
  | cons step rest ih =>
      obtain ⟨hd, next, hnext, hrest⟩ := walk_cons_iff.mp hwalk
      exact walk_cons_iff.mpr ⟨h.directory hd, next, hnext, ih hrest⟩

/-- Paths go on leading where they lead. -/
theorem Grows.find (h : Grows tree tree') {path : String} {place : Place}
    (hfind : tree.find path = .ok place) : tree'.find path = .ok place := by
  rw [FileTree.find] at hfind ⊢
  split at hfind
  · cases hfind
  · rw [if_neg ‹_›]
    exact h.walk hfind

/-! ## New entries -/

/-- A new entry goes to a name in a directory that is there. -/
theorem findNew_spec {path : String} {dots : FileError} {names : List String}
    (h : tree.findNew path dots = .ok names) :
    ∃ outer last before, steps path = before ++ [last] ∧
      tree.walk (origin path) before = .ok (some outer) ∧
      tree.entry? outer = some .directory ∧ last ≠ "." ∧ last ≠ ".." ∧ names = outer ++ [last] := by
  rw [findNew] at h
  split at h
  · cases h
  next last hlast =>
    obtain ⟨before, hbefore⟩ := List.getLast?_eq_some_iff.mp hlast
    rw [hbefore, List.dropLast_concat] at h
    cases hwalk : tree.walk (origin path) before with
    | error error =>
        rw [hwalk] at h
        cases h
    | ok place =>
        rw [hwalk] at h
        simp only [bind, Except.bind] at h
        split at h
        · cases h
        next hd =>
          split at h
          · cases h
          next hdots =>
            split at h
            · cases h
            next outer =>
              cases h
              simp only [Bool.or_eq_true, decide_eq_true_eq, not_or] at hdots
              exact ⟨outer, last, before, hbefore, hwalk, Decidable.not_not.mp hd, hdots.1, hdots.2,
                rfl⟩

/-- A path leads to the entry that is put there. -/
theorem find_insert {path : String} {dots : FileError} {names : List String} {entry : FileEntry}
    (h : tree.findNew path dots = .ok names)
    (hslash : endsWithSlash path = true → entry = .directory)
    (hgrows : Grows tree (tree.insert names entry)) :
    (tree.insert names entry).find path = .ok (some names) := by
  obtain ⟨outer, last, before, hsteps, hwalk, hd, hdot, hup, rfl⟩ := findNew_spec h
  have hentry : (tree.insert (outer ++ [last]) entry).entryAt (some (outer ++ [last])) =
      some entry := entry?_insert (by simp) entry
  -- A slash at the end takes one more step, which only a directory allows.
  have hfound : (tree.insert (outer ++ [last]) entry).walk (some (outer ++ [last]))
      (if endsWithSlash path then ["."] else []) = .ok (some (outer ++ [last])) := by
    split
    · rw [hslash ‹_›] at hentry ⊢
      exact walk_cons_iff.mpr ⟨hentry, _, rfl, walk_nil_iff.mpr ⟨by rw [hentry]; rfl, rfl⟩⟩
    · exact walk_nil_iff.mpr ⟨by rw [hentry]; rfl, rfl⟩
  have hne : path ≠ "" := by
    rintro rfl
    have hnone : steps "" = [] := by decide
    simp [hnone] at hsteps
  rw [FileTree.find, if_neg hne, hsteps, List.append_assoc]
  exact walk_append (hgrows.walk hwalk)
    (walk_cons_iff.mpr ⟨hgrows.directory hd, _, next?_name hdot hup, hfound⟩)

theorem ne_nil_of_findNew {path : String} {dots : FileError} {names : List String}
    (h : tree.findNew path dots = .ok names) : names ≠ [] := by
  obtain ⟨outer, last, -, -, -, -, -, -, rfl⟩ := findNew_spec h
  simp

/-- A new entry is put where its path leads to. -/
theorem puts_insert {path : String} {dots : FileError} {names : List String} {entry : FileEntry}
    (h : tree.findNew path dots = .ok names)
    (hslash : endsWithSlash path = true → entry = .directory)
    (hold : ∀ old, tree.entry? names = some old → (old = .directory ↔ entry = .directory)) :
    view.Puts tree (tree.insert names entry) path (some names) entry := by
  have hne := ne_nil_of_findNew h
  have hgrows := grows_insert hold hne
  refine ⟨?_, entry?_insert hne entry, ?_, ?_⟩
  · show ((tree.insert names entry).find path).toOption = some (some names)
    rw [find_insert h hslash hgrows]
    rfl
  · intro q hq
    cases q with
    | none => rfl
    | some other => exact entry?_insert_of_ne (fun heq => hq (congrArg some heq)) entry
  · intro other q hq
    have hfind : tree.find other = .ok q := by
      change (tree.find other).toOption = some q at hq
      cases hother : tree.find other with
      | error error =>
          rw [hother] at hq
          cases hq
      | ok place =>
          rw [hother] at hq
          exact congrArg Except.ok (Option.some.inj hq)
    show ((tree.insert names entry).find other).toOption = some q
    rw [hgrows.find hfind]
    rfl

theorem write_spec {path : String} {contents : List UInt8}
    (h : tree.write path contents = .ok tree') :
    ∃ names, tree.findNew path .isDirectory = .ok names ∧ ¬ endsWithSlash path = true ∧
      tree.entry? names ≠ some .directory ∧ tree' = tree.insert names (.file contents) := by
  rw [write] at h
  cases hnew : tree.findNew path .isDirectory with
  | error error =>
      rw [hnew] at h
      cases h
  | ok names =>
      rw [hnew] at h
      simp only [bind, Except.bind] at h
      split at h
      · cases h
      next hcheck =>
        simp only [Bool.or_eq_true, decide_eq_true_eq, not_or] at hcheck
        cases h
        exact ⟨names, rfl, hcheck.1, hcheck.2, rfl⟩

theorem makeDirectory_spec {path : String} (h : tree.makeDirectory path = .ok tree') :
    ∃ names, tree.findNew path .exists = .ok names ∧ tree.entry? names = none ∧
      tree' = tree.insert names .directory := by
  rw [makeDirectory] at h
  cases hnew : tree.findNew path .exists with
  | error error =>
      rw [hnew] at h
      cases h
  | ok names =>
      rw [hnew] at h
      simp only [bind, Except.bind] at h
      split at h
      · cases h
      next hnone =>
        cases h
        exact ⟨names, rfl, hnone, rfl⟩

theorem run_update (change : FileTree → Except FileError FileTree) :
    (update change).run tree = match change tree with
      | .ok tree' => (.ok (), tree')
      | .error error => (.error error, tree) := by
  simp only [update, StateT.run_bind, StateT.run_get]
  show (match change tree with
    | .ok tree' => _
    | .error error => _ : StateM FileTree (Except FileError Unit)).run tree = _
  split <;> rfl

theorem change_of_run_update {change : FileTree → Except FileError FileTree}
    (h : (update change).run tree = (.ok (), tree')) : change tree = .ok tree' := by
  rw [run_update] at h
  split at h
  next after hchange =>
    rw [hchange, (Prod.mk.inj h).2]
  · cases h

theorem same_of_run_update {change : FileTree → Except FileError FileTree} {error : FileError}
    (h : (update change).run tree = (.error error, tree')) : tree' = tree := by
  rw [run_update] at h
  split at h
  · cases h
  · exact (Prod.mk.inj h).2.symm

/-- A file that is not locked can be read. -/
theorem read_eq_ok_iff {path : String} {contents : List UInt8} : tree.read path = .ok contents ↔
    ∃ place, view.place? tree path = some place ∧ view.file? tree place = some contents ∧
      tree.isLocked place = false := by
  have hplace : view.place? tree path = (tree.find path).toOption := rfl
  rw [read, hplace]
  cases tree.find path with
  | error error =>
      constructor
      · intro h
        cases h
      · rintro ⟨place, hnone, -⟩
        cases hnone
  | ok place =>
      refine Iff.trans (b := tree.entryAt place = some (.file contents) ∧
        tree.isLocked place = false) ?_ ?_
      · simp only [bind, Except.bind]
        split
        · simp [*]
        · split <;> simp [*, pure, Except.pure]
      · refine ⟨fun h => ⟨place, rfl, FileView.file?_eq_some_iff.mpr h.1, h.2⟩, ?_⟩
        rintro ⟨other, hother, h, hlocked⟩
        cases hother
        exact ⟨FileView.file?_eq_some_iff.mp h, hlocked⟩

/-- File trees are lawful file systems. -/
theorem system_lawful : system.Lawful view where
  kind _ := fun _ => rfl
  names _ := fun _ => rfl
  read _ := fun _ => rfl
  contents hread := by
    obtain ⟨place, hplace, hfile, -⟩ := read_eq_ok_iff.mp hread
    exact ⟨place, hplace, hfile⟩
  write := by
    intro path contents tree tree' hrun
    obtain ⟨names, hnew, hslash, hfile, rfl⟩ := write_spec (change_of_run_update hrun)
    refine ⟨some names, puts_insert hnew (fun h => absurd h hslash) ?_, hfile⟩
    intro old hold
    exact iff_of_false (fun h => hfile (h ▸ hold)) (by simp)
  make := by
    intro path tree tree' hrun
    obtain ⟨names, hnew, hnone, rfl⟩ := makeDirectory_spec (change_of_run_update hrun)
    refine ⟨some names, puts_insert hnew (fun _ => rfl) ?_, hnone⟩
    intro old hold
    rw [hnone] at hold
    cases hold
  unmade := same_of_run_update

end ResourceTypes.FileTree
