import ResourceTypes.Path

/-! # Where paths lead

A path leads where its components lead: repeated and trailing slashes say nothing, and neither does
a single dot behind the first piece. A file name that is joined to any directory is one further
component, so files with distinct names in one directory are distinct.
-/

namespace ResourceTypes

/-! ## Parts of texts -/

namespace Text

variable {separator : Char}

theorem splitOn_ne_nil (separator : Char) (cs : List Char) : splitOn separator cs ≠ [] := by
  cases cs with
  | nil => simp [splitOn]
  | cons c rest =>
      rw [splitOn]
      split
      · exact List.cons_ne_nil _ _
      · split <;> exact List.cons_ne_nil _ _

theorem splitOn_of_not_mem {cs : List Char} (h : separator ∉ cs) : splitOn separator cs = [cs] := by
  induction cs with
  | nil => rfl
  | cons c rest ih =>
      obtain ⟨hc, hrest⟩ := not_or.mp (mt List.mem_cons.mpr h)
      rw [splitOn, if_neg (Ne.symm hc), ih hrest]

/-- A text is split at every separator. -/
theorem splitOn_append (before after : List Char) :
    splitOn separator (before ++ separator :: after) =
      splitOn separator before ++ splitOn separator after := by
  induction before with
  | nil => simp [splitOn]
  | cons c rest ih =>
      rw [List.cons_append, splitOn, splitOn, ih]
      split
      · rfl
      · obtain ⟨part, parts, hparts⟩ :=
          List.exists_cons_of_ne_nil (splitOn_ne_nil separator rest)
        rw [hparts]
        rfl

/-- The parts of a text have no separator in them. -/
theorem not_mem_of_mem_splitOn {cs part : List Char} (h : part ∈ splitOn separator cs) :
    separator ∉ part := by
  induction cs generalizing part with
  | nil =>
      rw [splitOn, List.mem_singleton] at h
      rw [h]
      exact List.not_mem_nil
  | cons c rest ih =>
      rw [splitOn] at h
      split at h
      next =>
        rcases List.mem_cons.mp h with rfl | h
        · exact List.not_mem_nil
        · exact ih h
      next hc =>
        obtain ⟨first, parts, hparts⟩ :=
          List.exists_cons_of_ne_nil (splitOn_ne_nil separator rest)
        rw [hparts] at h ih
        rcases List.mem_cons.mp h with rfl | h
        · rw [List.mem_cons, not_or]
          exact ⟨Ne.symm hc, ih List.mem_cons_self⟩
        · exact ih (List.mem_cons_of_mem first h)

end Text

/-! ## Components -/

namespace Path

/-- A part of a path that says where it leads. -/
inductive Component
  | root
  | here
  | up
  | named (name : String)
  deriving DecidableEq

def component? (piece : String) : Option Component :=
  if isIdle piece then none else if piece = ".." then some .up else some (.named piece)

/-- What the first piece says. An empty one is the root, unless there is nothing behind it. -/
def firstComponent? (alone : Bool) (piece : String) : Option Component :=
  if piece = "" then if alone then none else some .root
  else if piece = "." then some .here
  else component? piece

def componentsOf : List String → List Component
  | [] => []
  | first :: rest => (firstComponent? rest.isEmpty first).toList ++ rest.filterMap component?

/-- The components of a path. Paths that have the same ones are the same path. -/
def components (path : String) : List Component :=
  componentsOf (pieces path)

theorem component_of_name {name : String} (hidle : isIdle name = false) (hup : name ≠ "..") :
    component? name = some (.named name) := by
  simp [component?, hidle, hup]

theorem firstComponent_of_name {name : String} (hidle : isIdle name = false) (hup : name ≠ "..")
    (alone : Bool) : firstComponent? alone name = some (.named name) := by
  have hidle' := hidle
  simp only [isIdle, Bool.or_eq_false_iff, decide_eq_false_iff_not] at hidle'
  rw [firstComponent?, if_neg hidle'.1, if_neg hidle'.2, component_of_name hidle hup]

/-- Pieces behind others say what they say, whatever stands before them. -/
theorem componentsOf_append (first : String) (rest : List String) {more : List String}
    (hne : more ≠ []) :
    componentsOf (first :: rest ++ more) =
      (firstComponent? false first).toList ++ rest.filterMap component? ++
        more.filterMap component? := by
  have hsome : (rest ++ more).isEmpty = false := by simp [hne]
  rw [List.cons_append, componentsOf, hsome, List.filterMap_append, List.append_assoc]

theorem pieces_of_not_mem {path : String} (h : '/' ∉ path.toList) : pieces path = [path] := by
  rw [pieces, Text.splitOn_of_not_mem h, List.map_singleton, String.ofList_toList]

theorem pieces_append (before after : String) :
    pieces (before ++ "/" ++ after) = pieces before ++ pieces after := by
  have hchars : (before ++ "/" ++ after).toList = before.toList ++ '/' :: after.toList := by
    simp
  rw [pieces, hchars, Text.splitOn_append, List.map_append]
  rfl

theorem pieces_slash (path : String) : pieces (path ++ "/") = pieces path ++ [""] := by
  have hempty : pieces "" = [""] := pieces_of_not_mem List.not_mem_nil
  have happend := pieces_append path ""
  rwa [String.append_empty, hempty] at happend

theorem exists_pieces (path : String) : ∃ first rest, pieces path = first :: rest := by
  obtain ⟨part, parts, h⟩ :=
    List.exists_cons_of_ne_nil (Text.splitOn_ne_nil '/' path.toList)
  exact ⟨String.ofList part, parts.map String.ofList, by rw [pieces, h, List.map_cons]⟩

theorem eq_empty_of_pieces {path : String} (h : pieces path = [""]) : path = "" := by
  have hparts : Text.splitOn '/' path.toList = [[]] := by
    rw [pieces, List.map_eq_singleton_iff] at h
    obtain ⟨part, hpart, hempty⟩ := h
    rw [hpart, String.ofList_eq_empty_iff.mp hempty]
  cases hchars : path.toList with
  | nil => exact String.toList_eq_nil_iff.mp hchars
  | cons c rest =>
      rw [hchars, Text.splitOn] at hparts
      split at hparts
      · exact (Text.splitOn_ne_nil _ _ (List.cons.inj hparts).2).elim
      · split at hparts <;> simp at hparts

/-- A name begins the pieces of a path that begins with neither a slash nor a point. -/
theorem exists_pieces_of_head {path : String} {c : Char} {rest : List Char}
    (h : path.toList = c :: rest) (hslash : c ≠ '/') (hdot : c ≠ '.') :
    ∃ first others, pieces path = first :: others ∧ isIdle first = false ∧ first ≠ ".." := by
  obtain ⟨part, parts, hparts⟩ := List.exists_cons_of_ne_nil (Text.splitOn_ne_nil '/' rest)
  have hpieces : pieces path = String.ofList (c :: part) :: parts.map String.ofList := by
    rw [pieces, h, Text.splitOn, if_neg hslash, hparts, List.map_cons]
  have hhead : (String.ofList (c :: part)).toList.head? = some c := by simp
  have hne : ∀ other : String, other.toList.head? ≠ some c → String.ofList (c :: part) ≠ other :=
    fun other ho he => ho (he ▸ hhead)
  refine ⟨_, _, hpieces, ?_, hne ".." (by simpa using Ne.symm hdot)⟩
  simp only [isIdle, Bool.or_eq_false_iff, decide_eq_false_iff_not]
  exact ⟨hne "" (by simp), hne "." (by simpa using Ne.symm hdot)⟩

/-- The pieces of a path that begins with a name all say what they say. -/
theorem components_of_pieces {path first : String} {rest : List String}
    (hpieces : pieces path = first :: rest) (hidle : isIdle first = false) (hup : first ≠ "..") :
    components path = (first :: rest).filterMap component? := by
  rw [components, hpieces, componentsOf, firstComponent_of_name hidle hup,
    List.filterMap_cons_some (component_of_name hidle hup)]
  rfl

/-- A path that begins with a name leads its own way behind a slash. -/
theorem components_append_slash (folder : String) {path first : String} {others : List String}
    (hpieces : pieces path = first :: others) (hidle : isIdle first = false) (hup : first ≠ "..") :
    components (folder ++ "/" ++ path) = components (folder ++ "/") ++ components path := by
  obtain ⟨outer, rest, houter⟩ := exists_pieces folder
  have hnothing : [""].filterMap component? = [] := by decide
  rw [components_of_pieces hpieces hidle hup, components, components, pieces_slash, pieces_append,
    hpieces, houter, componentsOf_append _ _ (by simp), componentsOf_append _ _ (by simp), hnothing,
    List.append_nil]

/-- A slash at the end of a path says nothing. -/
theorem components_slash {path : String} (h : path ≠ "") :
    components (path ++ "/") = components path := by
  obtain ⟨first, rest, hpieces⟩ := exists_pieces path
  have hsame : firstComponent? rest.isEmpty first = firstComponent? false first := by
    cases rest with
    | cons second rest => rfl
    | nil =>
        have hne : first ≠ "" := by
          rintro rfl
          exact h (eq_empty_of_pieces hpieces)
        simp [firstComponent?, hne]
  have hnothing : [""].filterMap component? = [] := by decide
  rw [components, pieces_slash, hpieces, componentsOf_append _ _ (by simp), hnothing,
    List.append_nil, components, hpieces, componentsOf, hsame]

/-- A path that begins with a name leads its own way below whatever it is joined to. -/
theorem components_join_of_pieces (base : String) {path first : String} {others : List String}
    (hpieces : pieces path = first :: others) (hidle : isIdle first = false) (hup : first ≠ "..") :
    components (join base path) = components base ++ components path := by
  have hrelative : path.toList.head? ≠ some '/' := by
    intro hhead
    obtain ⟨chars, hchars⟩ := List.head?_eq_some_iff.mp hhead
    rw [pieces, hchars, Text.splitOn, if_pos rfl, List.map_cons] at hpieces
    have hempty : first = "" := (List.cons.inj hpieces).1.symm
    rw [hempty] at hidle
    cases hidle
  by_cases hbase : base = ""
  · subst hbase
    rw [join, if_pos (by simp)]
    rfl
  rw [join, if_neg (by simp [hrelative, hbase])]
  split
  next hlast =>
    obtain ⟨chars, hchars⟩ := List.getLast?_eq_some_iff.mp hlast
    have hfolder : base = String.ofList chars ++ "/" := by
      apply String.toList_inj.mp
      simp [hchars]
    rw [hfolder]
    exact components_append_slash _ hpieces hidle hup
  next => rw [components_append_slash base hpieces hidle hup, components_slash hbase]

/-- What stands behind the last slash of a path. -/
theorem exists_last_slash {path : String} (h : '/' ∈ path.toList) :
    ∃ folder name, path = folder ++ "/" ++ name ∧ '/' ∉ name.toList := by
  obtain ⟨after, before, hchars, hafter⟩ := List.eq_append_cons_of_mem (List.mem_reverse.mpr h)
  refine ⟨String.ofList before.reverse, String.ofList after.reverse, ?_, by simpa using hafter⟩
  apply String.toList_inj.mp
  rw [← List.reverse_reverse path.toList, hchars]
  simp

/-- A path whose first component is a name leads its own way below whatever it is joined to. -/
theorem components_join_of_named (base : String) {path name : String} {rest : List Component}
    (h : components path = .named name :: rest) :
    components (join base path) = components base ++ components path := by
  obtain ⟨first, others, hpieces⟩ := exists_pieces path
  rw [components, hpieces, componentsOf] at h
  have hempty : first ≠ "" := by
    rintro rfl
    cases others with
    | nil => simp [firstComponent?] at h
    | cons second others => simp [firstComponent?] at h
  have hhere : first ≠ "." := by
    rintro rfl
    simp [firstComponent?] at h
  have hup : first ≠ ".." := by
    rintro rfl
    have hcomponent : ∀ alone, firstComponent? alone ".." = some .up := by decide
    rw [hcomponent] at h
    cases h
  exact components_join_of_pieces base hpieces (by simp [isIdle, hempty, hhere]) hup

/-- Whether a text is a part of a path that leads down. -/
def IsName (name : String) : Prop :=
  '/' ∉ name.toList ∧ name ∉ ["", ".", ".."]

instance (name : String) : Decidable (IsName name) :=
  inferInstanceAs (Decidable (_ ∧ _))

theorem IsName.piece {name : String} (h : IsName name) :
    pieces name = [name] ∧ isIdle name = false ∧ name ≠ ".." := by
  have hdots := h.2
  simp only [List.mem_cons, List.not_mem_nil, or_false, not_or] at hdots
  exact ⟨pieces_of_not_mem h.1, by simp [isIdle, hdots.1, hdots.2.1], hdots.2.2⟩

theorem IsName.components {name : String} (h : IsName name) : components name = [.named name] := by
  obtain ⟨hpieces, hidle, hup⟩ := h.piece
  rw [components_of_pieces hpieces hidle hup,
    List.filterMap_cons_some (component_of_name hidle hup)]
  rfl

/-- A file in a directory is one component below it, whatever the directory is. -/
theorem components_join (base : String) {name : String} (h : IsName name) :
    components (join base name) = components base ++ [.named name] := by
  obtain ⟨hpieces, hidle, hup⟩ := h.piece
  rw [components_join_of_pieces base hpieces hidle hup, h.components]

/-- A name in a path has no slash in it. -/
theorem not_mem_of_named_mem {path name : String} (h : Component.named name ∈ components path) :
    '/' ∉ name.toList := by
  have hpiece : ∀ piece ∈ pieces path, '/' ∉ piece.toList := by
    intro piece hp
    obtain ⟨part, hpart, rfl⟩ := List.mem_map.mp hp
    rw [String.toList_ofList]
    exact Text.not_mem_of_mem_splitOn hpart
  have hsays : ∀ piece ∈ pieces path,
      component? piece = some (.named name) → '/' ∉ name.toList := by
    intro piece hp hc
    unfold component? at hc
    split at hc
    · cases hc
    split at hc
    · cases hc
    · cases hc
      exact hpiece _ hp
  obtain ⟨first, rest, hpieces⟩ := exists_pieces path
  rw [components, hpieces, componentsOf, List.mem_append] at h
  rw [hpieces] at hsays
  rcases h with h | h
  · apply hsays first List.mem_cons_self
    unfold firstComponent? at h
    split at h
    · split at h <;> simp at h
    split at h
    · simp at h
    · exact Option.mem_toList.mp h
  · obtain ⟨piece, hp, hc⟩ := List.mem_filterMap.mp h
    exact hsays piece (List.mem_cons_of_mem _ hp) hc

/-- Names are the paths that are one step down. -/
theorem components_eq_self_iff {name : String} : components name = [.named name] ↔ IsName name := by
  refine ⟨fun h => ⟨not_mem_of_named_mem (h ▸ List.mem_singleton_self _), fun hm => ?_⟩,
    IsName.components⟩
  have hdots : ∀ other ∈ ["", ".", ".."], components other ≠ [.named other] := by decide
  exact hdots name hm h

example : components (join "./out//v1/" "mod.rs") =
    [.here, .named "out", .named "v1", .named "mod.rs"] := by decide

end Path

end ResourceTypes
