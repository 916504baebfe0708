import Mathlib.Data.List.Forall2
import ResourceTypes.CommandLine.Run
import ResourceTypes.Proofs.Files.Laws

/-! # What commands read

Finding definitions, loading them and compiling them looks at the file system and leaves it as it
is, whatever comes of it. A batch is the one of all definitions in the order of the paths given,
with what a pattern stands for in its place and in the order of the search. A search that meets an
error stands for nothing.
-/

namespace ResourceTypes

/-! ## Attempts in a row -/

section Attempts

variable {σ α β : Type} {x : Attempt (StateM σ) α} {f : α → Attempt (StateM σ) β} {s s' : σ}

theorem run_bind_of_ok {a : α} (h : x.run.run s = (.ok a, s')) :
    (x >>= f).run.run s = (f a).run.run s' := by
  show StateT.run (ExceptT.bindCont f (x.run.run s).1) (x.run.run s).2 = _
  rw [h]
  rfl

theorem run_bind_of_error {failure : Failure} (h : x.run.run s = (.error failure, s')) :
    (x >>= f).run.run s = (.error failure, s') := by
  show StateT.run (ExceptT.bindCont f (x.run.run s).1) (x.run.run s).2 = _
  rw [h]
  rfl

/-- The first attempt that fails is what all of them fail with. -/
theorem run_mapM_of_error {before after : List α} {a : α} {failure : Failure}
    (hbefore : ∀ other ∈ before, ∃ b, (f other).run.run s = (.ok b, s))
    (h : (f a).run.run s = (.error failure, s)) :
    ((before ++ a :: after).mapM f).run.run s = (.error failure, s) := by
  induction before with
  | nil =>
      rw [List.nil_append, List.mapM_cons]
      exact run_bind_of_error h
  | cons other before ih =>
      obtain ⟨b, hb⟩ := hbefore other List.mem_cons_self
      rw [List.cons_append, List.mapM_cons, run_bind_of_ok hb]
      exact run_bind_of_error (ih fun next hnext => hbefore next (List.mem_cons_of_mem _ hnext))

end Attempts

/-! ## Attempts that only look -/

section Reads

variable {σ α β : Type} {x : Attempt (StateM σ) α} {s : σ} {P : α → Prop}

/-- Whether an attempt leaves a state as it is and succeeds with the values that have a property. -/
def Reads (x : Attempt (StateM σ) α) (s : σ) (P : α → Prop) : Prop :=
  (x.run.run s).2 = s ∧ ∀ a, (x.run.run s).1 = .ok a ↔ P a

theorem Reads.run_eq_iff (h : Reads x s P) {a : α} {s' : σ} :
    x.run.run s = (.ok a, s') ↔ P a ∧ s' = s := by
  rw [Prod.ext_iff]
  simp only [h.1, h.2]
  exact and_congr_right fun _ => eq_comm

theorem Reads.pure (a : α) : Reads (Pure.pure a : Attempt (StateM σ) α) s (· = a) :=
  ⟨rfl, fun _ => ⟨fun h => (Except.ok.inj h).symm, fun h => congrArg Except.ok h.symm⟩⟩

theorem Reads.throw (failure : Failure) :
    Reads (MonadExcept.throw failure : Attempt (StateM σ) α) s fun _ => False :=
  ⟨rfl, fun _ => ⟨nofun, False.elim⟩⟩

theorem Reads.lift {action : StateM σ α} (h : Keeps action) :
    Reads (ExceptT.lift action) s (· = (action.run s).1) :=
  ⟨h s, fun _ => ⟨fun ha => (Except.ok.inj ha).symm, fun ha => congrArg Except.ok ha.symm⟩⟩

theorem Reads.bind {f : α → Attempt (StateM σ) β} {Q : α → β → Prop} (hx : Reads x s P)
    (hf : ∀ a, P a → Reads (f a) s (Q a)) : Reads (x >>= f) s fun b => ∃ a, P a ∧ Q a b := by
  have hrun : (x >>= f).run.run s =
      StateT.run (ExceptT.bindCont f (x.run.run s).1) (x.run.run s).2 := rfl
  obtain ⟨hstate, hvalue⟩ := hx
  rw [Reads, hrun, hstate]
  cases hresult : (x.run.run s).1 with
  | error failure =>
      refine ⟨rfl, fun _ => ⟨nofun, ?_⟩⟩
      rintro ⟨a, ha, -⟩
      rw [← hvalue a, hresult] at ha
      cases ha
  | ok a =>
      have ha : P a := (hvalue a).mp hresult
      obtain ⟨hkeeps, hthen⟩ := hf a ha
      refine ⟨hkeeps, fun b => (hthen b).trans ⟨fun hb => ⟨a, ha, hb⟩, ?_⟩⟩
      rintro ⟨a', ha', hb⟩
      rw [← hvalue a', hresult] at ha'
      cases ha'
      exact hb

theorem Reads.congr {Q : α → Prop} (h : Reads x s P) (hPQ : ∀ a, P a ↔ Q a) : Reads x s Q :=
  ⟨h.1, fun a => (h.2 a).trans (hPQ a)⟩

theorem Reads.mapM {f : α → Attempt (StateM σ) β} {R : α → β → Prop}
    (hf : ∀ a, Reads (f a) s (R a)) (l : List α) : Reads (l.mapM f) s (List.Forall₂ R l) := by
  induction l with
  | nil =>
      exact (Reads.pure []).congr fun _ => List.forall₂_nil_left_iff.symm
  | cons a l ih =>
      rw [List.mapM_cons]
      refine ((hf a).bind fun b _ => ih.bind fun bs _ => .pure (b :: bs)).congr fun bs => ?_
      rw [List.forall₂_cons_left_iff]
      exact ⟨fun ⟨b, hb, bs', hbs, heq⟩ => ⟨b, bs', hb, hbs, heq⟩,
        fun ⟨b, bs', hb, hbs, heq⟩ => ⟨b, hb, bs', hbs, heq⟩⟩

theorem Reads.ok {ε : Type} (a : α) :
    Reads (Pure.pure a : Attempt (StateM σ) α) s ((.ok a : Except ε α) = .ok ·) :=
  (Reads.pure a).congr fun _ =>
    ⟨fun h => congrArg Except.ok h.symm, fun h => (Except.ok.inj h).symm⟩

theorem Reads.error {ε : Type} (failure : Failure) (error : ε) :
    Reads (MonadExcept.throw failure : Attempt (StateM σ) α) s
      ((.error error : Except ε α) = .ok ·) :=
  (Reads.throw failure).congr fun _ => ⟨False.elim, nofun⟩

theorem Reads.attempt {action : StateM σ (Except FileError α)} {failure : FileError → Failure}
    (h : Keeps action) : Reads (Command.attempt action failure) s ((action.run s).1 = .ok ·) := by
  refine ((Reads.lift h).bind (Q := fun result a => result = .ok a) fun result _ => ?_).congr
    fun _ => ⟨fun ⟨_, hresult, ha⟩ => hresult ▸ ha, fun ha => ⟨_, rfl, ha⟩⟩
  cases result with
  | ok value => exact .ok value
  | error error => exact .error (failure error) error

end Reads

/-! ## Search -/

section Search

variable {σ : Type} {fs : FileSystem (StateM σ)} {view : FileView σ}

theorem FileSystem.Lawful.answer (h : fs.Lawful view) (directoriesOnly : Bool) (path : String) :
    Keeps (Glob.answer fs directoriesOnly path) :=
  (h.isDirectory path).bind fun _ => .ite (.pure []) (.pure [path])

/-- Both ways to search go on in each other, with less depth. -/
theorem FileSystem.Lawful.search_steps (h : fs.Lawful view) (directoriesOnly : Bool)
    (depth : Nat) : (∀ parts path, Keeps (Glob.searchBelow fs directoriesOnly depth parts path)) ∧
      ∀ parts path name, Keeps (Glob.searchAt fs directoriesOnly depth parts path name) := by
  induction depth with
  | zero => exact ⟨fun _ _ => .pure [], fun _ _ _ => .pure []⟩
  | succ depth ih =>
      obtain ⟨hbelow, hat⟩ := ih
      constructor
      · intro parts path
        cases parts with
        | nil => exact h.answer directoriesOnly path
        | cons part parts =>
            rw [Glob.searchBelow]
            refine .ite ?_ ((h.isDirectory path).bind fun _ => .ite (.pure []) ?_)
            · have hfound (isThere : Bool) : Keeps (if isThere then
                  Glob.searchBelow fs directoriesOnly depth parts (Glob.below path part.text)
                  else pure []) := .ite (hbelow _ _) (.pure [])
              exact .ite ((h.isDirectory path).bind hfound)
                ((h.kind _).bind fun _ => (Keeps.pure _).bind hfound)
            · refine (h.names path).bind fun listed => ?_
              cases listed with
              | error error => exact .pure _
              | ok names =>
                  refine (Keeps.mapM (fun _ => hbelow _ _) _).bind fun special => ?_
                  exact (Keeps.mapM (fun _ => hat _ _ _) _).bind fun found => .pure _
      · intro parts path name
        cases parts with
        | nil => exact .pure []
        | cons part parts =>
            rw [Glob.searchAt]
            refine .ite ((h.isDirectory path).bind fun isDirectory => ?_)
              (.ite (hbelow _ _) (.pure []))
            refine .bind_ite (hbelow _ _) (.pure []) fun deeper => ?_
            split
            · exact .pure _
            · exact .bind_ite (hbelow _ _) (.pure []) fun here => .pure _

theorem FileSystem.Lawful.search (h : fs.Lawful view) (pattern : Glob.Pattern) :
    Keeps (Glob.search fs pattern) :=
  (h.search_steps _ _).1 _ _

end Search

/-! ## Batches -/

namespace Command

variable {σ : Type} {fs : FileSystem (StateM σ)} {view : FileView σ} {s : σ}

/-- The paths that an input stands for: what the search for it yields if it is a pattern, which has
to be something and no error, or else the path itself. -/
def Found (fs : FileSystem (StateM σ)) (s : σ) (path : String) (paths : List String) : Prop :=
  if Glob.isPattern path then
    ∃ pattern, Glob.readPattern path = .ok pattern ∧
      ((Glob.search fs pattern).run s).1 = paths.map .ok ∧ paths ≠ []
  else paths = [path]

def Loaded (fs : FileSystem (StateM σ)) (s : σ) (path : String) (definitions : List Definition) :
    Prop :=
  ∃ bytes, ((fs.read path).run s).1 = .ok bytes ∧
    Definition.ofDocuments path (Yaml.documents bytes) = .ok definitions

/-- The batch that an input makes, of all definitions in the order of the inputs. -/
def Compiles (fs : FileSystem (StateM σ)) (s : σ) (input : InputSettings) (b : Batch) : Prop :=
  ∃ paths definitions, List.Forall₂ (Found fs s) input.definitions paths ∧
    List.Forall₂ (Loaded fs s) paths.flatten definitions ∧
    (compileBatch input.options definitions.flatten).batch = .ok b

theorem reads_expand (entries : List Glob.Entry) :
    Reads (entries.mapM expand) s fun paths => entries = paths.map .ok := by
  have hentry (entry : Glob.Entry) :
      Reads (σ := σ) (expand entry) s fun path => entry = .ok path := by
    cases entry with
    | ok path => exact .ok path
    | error error => exact .error (.badEntry error) error
  refine (Reads.mapM hentry entries).congr fun paths => ?_
  rw [← List.forall₂_eq_eq_eq, List.forall₂_map_right_iff]

theorem reads_resolve (h : fs.Lawful view) (path : String) :
    Reads (resolve fs path) s (Found fs s path) := by
  unfold Found
  rw [resolve]
  split
  · cases Glob.readPattern path with
    | error error =>
        exact (Reads.throw _).congr fun _ => ⟨False.elim, fun ⟨_, hok, _⟩ => nomatch hok⟩
    | ok pattern =>
        have hthen (found : List String) : Reads (if found.isEmpty then throw (.noMatch path)
            else pure found) s fun paths => paths = found ∧ paths ≠ [] := by
          cases found with
          | nil => exact (Reads.throw _).congr fun _ => ⟨False.elim, fun ⟨heq, hne⟩ => hne heq⟩
          | cons first rest =>
              refine (Reads.pure (first :: rest)).congr fun paths => ⟨?_, And.left⟩
              rintro rfl
              exact ⟨rfl, List.cons_ne_nil first rest⟩
        refine ((Reads.lift (h.search pattern)).bind fun entries _ =>
          (reads_expand entries).bind fun found _ => hthen found).congr fun paths => ?_
        constructor
        · rintro ⟨_, rfl, found, hfound, rfl, hne⟩
          exact ⟨pattern, rfl, hfound, hne⟩
        · rintro ⟨other, hother, hfound, hne⟩
          cases hother
          exact ⟨_, rfl, paths, hfound, rfl, hne⟩
  · exact Reads.pure [path]

/-- A search that meets an error fails with the first one, whatever it has found before. -/
theorem run_resolve_of_error (h : fs.Lawful view) {path : String} {pattern : Glob.Pattern}
    (hpath : Glob.isPattern path = true) (hpattern : Glob.readPattern path = .ok pattern)
    {found : List String} {error : Glob.EntryError} {rest : List Glob.Entry}
    (hsearch : ((Glob.search fs pattern).run s).1 = found.map .ok ++ .error error :: rest) :
    (resolve fs path).run.run s = (.error (.badEntry error), s) := by
  have hexpand : ((found.map Except.ok ++ Except.error error :: rest).mapM expand :
      Attempt (StateM σ) (List String)).run.run s = (.error (.badEntry error), s) := by
    refine run_mapM_of_error (fun other hother => ?_) rfl
    obtain ⟨path, -, rfl⟩ := List.mem_map.mp hother
    exact ⟨path, rfl⟩
  have hentries : (ExceptT.lift (Glob.search fs pattern)).run.run s =
      (Except.ok (found.map .ok ++ .error error :: rest), s) :=
    (Reads.lift (h.search pattern)).run_eq_iff.mpr ⟨hsearch.symm, rfl⟩
  rw [resolve, if_pos hpath, hpattern]
  exact (run_bind_of_ok hentries).trans (run_bind_of_error hexpand)

theorem reads_load (h : fs.Lawful view) (path : String) :
    Reads (load fs path) s (Loaded fs s path) := by
  refine (Reads.attempt (h.read path)).bind fun bytes _ => ?_
  cases Definition.ofDocuments path (Yaml.documents bytes) with
  | ok definitions => exact .ok definitions
  | error error => exact .error (.badDefinition path error) error

/-- Compiling only looks at the file system, and succeeds with the batch of the input. -/
theorem reads_compile (h : fs.Lawful view) (input : InputSettings) :
    Reads (compile fs input) s (Compiles fs s input) := by
  refine ((Reads.mapM (reads_resolve h) input.definitions).bind fun paths _ =>
    (Reads.mapM (reads_load h) paths.flatten).bind (Q := fun definitions b =>
      (compileBatch input.options definitions.flatten).batch = .ok b) fun definitions _ => ?_).congr
      fun b => ?_
  · cases (compileBatch input.options definitions.flatten).batch with
    | ok batch => exact .ok batch
    | error error => exact .error (.incompatible error) error
  constructor
  · rintro ⟨paths, hpaths, definitions, hdefinitions, hbatch⟩
    exact ⟨paths, definitions, hpaths, hdefinitions, hbatch⟩
  · rintro ⟨paths, definitions, hpaths, hdefinitions, hbatch⟩
    exact ⟨paths, hpaths, definitions, hdefinitions, hbatch⟩

/-- With an error in the search for one of the inputs, and none before, no batch is made. -/
theorem run_compile_of_error (h : fs.Lawful view) {input : InputSettings}
    {before after : List String} {path : String} {pattern : Glob.Pattern}
    (hinput : input.definitions = before ++ path :: after)
    (hbefore : ∀ other ∈ before, ∃ paths, Found fs s other paths)
    (hpath : Glob.isPattern path = true) (hpattern : Glob.readPattern path = .ok pattern)
    {found : List String} {error : Glob.EntryError} {rest : List Glob.Entry}
    (hsearch : ((Glob.search fs pattern).run s).1 = found.map .ok ++ .error error :: rest) :
    (compile fs input).run.run s = (.error (.badEntry error), s) := by
  rw [compile, hinput]
  refine run_bind_of_error (run_mapM_of_error (fun other hother => ?_)
    (run_resolve_of_error h hpath hpattern hsearch))
  obtain ⟨paths, hpaths⟩ := hbefore other hother
  exact ⟨paths, (reads_resolve h other).run_eq_iff.mpr ⟨hpaths, rfl⟩⟩

example :
    let tree := (FileTree.empty.insert ["closed"] .directory).lock ["closed"]
    let command := Command.rust ⟨["b.yaml", "closed/*.yaml"], none, false⟩ "out" false
    ((command.run FileTree.system).run tree).1.err =
      "Error: failed to resolve CRD paths\n\nCaused by:\n" ++
        "    0: failed to expand glob entry: attempting to read \x60closed\x60 " ++
        "resulted in an error: Permission denied (os error 13)\n" ++
        "    1: attempting to read \x60closed\x60 " ++
        "resulted in an error: Permission denied (os error 13)\n" := by
  decide +kernel

end Command

end ResourceTypes
