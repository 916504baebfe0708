import Mathlib.Logic.Relation
import ResourceTypes.Files.Tree

/-! # Laws of file systems

What a file system does is told by what can be seen of its states: the place that a path leads to,
and what is at a place. Looking changes nothing, writing puts a file at the place that its path
leads to, and making a directory puts a directory where nothing was. Directories that are made
around a path are the only things that this changes.
-/

namespace ResourceTypes

/-! ## Actions on a state -/

section Actions

variable {σ α β : Type} {x : StateM σ α} {f : α → StateM σ β} {s s' : σ}

theorem run_bind_eq_iff {b : β} :
    (x >>= f).run s = (b, s') ↔ ∃ a t, x.run s = (a, t) ∧ (f a).run t = (b, s') := by
  constructor
  · intro h
    exact ⟨_, _, rfl, h⟩
  · rintro ⟨a, t, hx, hf⟩
    rw [StateT.run_bind, hx]
    exact hf

def Keeps (x : StateM σ α) : Prop :=
  ∀ s, (x.run s).2 = s

theorem Keeps.pure (a : α) : Keeps (pure a : StateM σ α) :=
  fun _ => rfl

theorem Keeps.bind (hx : Keeps x) (hf : ∀ a, Keeps (f a)) : Keeps (x >>= f) := by
  intro s
  have hstate : ((x >>= f).run s).2 = (x.run s).2 := hf (x.run s).1 (x.run s).2
  rw [hstate, hx s]

theorem Keeps.ite {c : Prop} {_ : Decidable c} {y : StateM σ α} (hx : Keeps x) (hy : Keeps y) :
    Keeps (if c then x else y) := by
  split
  · exact hx
  · exact hy

theorem Keeps.bind_ite {c : Prop} {_ : Decidable c} {y : StateM σ α} (hx : Keeps x) (hy : Keeps y)
    (hf : ∀ a, Keeps (f a)) : Keeps (if c then x >>= f else y >>= f) :=
  .ite (hx.bind hf) (hy.bind hf)

theorem Keeps.mapM (hf : ∀ a, Keeps (f a)) (l : List α) : Keeps (l.mapM f) := by
  induction l with
  | nil => exact .pure []
  | cons a l ih =>
      rw [List.mapM_cons]
      exact (hf a).bind fun b => ih.bind fun bs => .pure (b :: bs)

theorem Keeps.state_eq (h : Keeps x) {a : α} (hrun : x.run s = (a, s')) : s' = s := by
  have hstate := h s
  rwa [hrun] at hstate

end Actions

/-! ## Views -/

/-- What can be seen of a state of a file system. -/
structure FileView (σ : Type) where
  Place : Type
  /-- The place of what a path leads to, if it leads to anything. -/
  place? : σ → String → Option Place
  entry? : σ → Place → Option FileEntry

namespace FileView

variable {σ : Type} (view : FileView σ)

def file? (s : σ) (p : view.Place) : Option (List UInt8) :=
  match view.entry? s p with
  | some (.file contents) => some contents
  | _ => none

/-- Whether all paths go on leading where they lead. -/
def Follows (s s' : σ) : Prop :=
  ∀ path p, view.place? s path = some p → view.place? s' path = some p

/-- Whether an entry is put at the place that a path leads to, and nothing else changes. -/
structure Puts (s s' : σ) (path : String) (p : view.Place) (entry : FileEntry) : Prop where
  place : view.place? s' path = some p
  entry : view.entry? s' p = some entry
  others : ∀ q, q ≠ p → view.entry? s' q = view.entry? s q
  follows : view.Follows s s'

/-- Whether a place that had nothing has a directory, which one of some paths leads to. -/
structure NewDirectory (s s' : σ) (paths : String → Prop) (p : view.Place) : Prop where
  before : view.entry? s p = none
  after : view.entry? s' p = some .directory
  path : ∃ path, paths path ∧ view.place? s' path = some p

/-- Whether a place is as it was, unless a directory is new there. -/
def Kept (s s' : σ) (paths : String → Prop) (p : view.Place) : Prop :=
  view.entry? s' p = view.entry? s p ∨ view.NewDirectory s s' paths p

/-- Whether directories that some paths lead to are all that is new. -/
structure Extends (s s' : σ) (paths : String → Prop) : Prop where
  kept : ∀ p, view.Kept s s' paths p
  follows : view.Follows s s'

variable {view} {s t s' : σ} {paths others : String → Prop} {p : view.Place}

theorem file?_eq_some_iff {contents : List UInt8} :
    view.file? s p = some contents ↔ view.entry? s p = some (.file contents) := by
  rw [file?]
  split
  next heq => simp [heq]
  next hother =>
    constructor
    · nofun
    · intro h
      exact absurd h (hother contents)

theorem Follows.trans (h : view.Follows s t) (h' : view.Follows t s') : view.Follows s s' :=
  fun path p hp => h' path p (h path p hp)

theorem Kept.mono (h : view.Kept s s' paths p) (hsub : ∀ path, paths path → others path) :
    view.Kept s s' others p :=
  h.imp_right fun hnew =>
    ⟨hnew.before, hnew.after, hnew.path.imp fun path hpath => hpath.imp_left (hsub path)⟩

theorem Kept.trans (h : view.Kept s t paths p) (h' : view.Kept t s' paths p)
    (hfollows : view.Follows t s') : view.Kept s s' paths p := by
  rcases h with heq | hnew
  · rcases h' with heq' | hnew'
    · exact .inl (heq'.trans heq)
    · exact .inr ⟨heq ▸ hnew'.before, hnew'.after, hnew'.path⟩
  · rcases h' with heq' | hnew'
    · exact .inr ⟨hnew.before, heq'.trans hnew.after,
        hnew.path.imp fun path hpath => hpath.imp_right (hfollows path p)⟩
    · have hnone := hnew'.before
      rw [hnew.after] at hnone
      cases hnone

/-- A directory is no file. -/
theorem Kept.file?_eq (h : view.Kept s s' paths p) : view.file? s' p = view.file? s p := by
  rcases h with heq | hnew
  · rw [file?, heq, file?]
  · rw [file?, hnew.after, file?, hnew.before]

theorem Kept.directory (h : view.Kept s s' paths p) (hd : view.entry? s p = some .directory) :
    view.entry? s' p = some .directory := by
  rcases h with heq | hnew
  · exact heq.trans hd
  · exact hnew.after

theorem Extends.refl (s : σ) (paths : String → Prop) : view.Extends s s paths :=
  ⟨fun _ => .inl rfl, fun _ _ h => h⟩

theorem Extends.of_pure {α : Type} {a b : α}
    (h : (pure a : StateM σ α).run s = (b, s')) : view.Extends s s' paths :=
  (Prod.mk.inj h).2 ▸ .refl s paths

theorem Extends.mono (h : view.Extends s s' paths) (hsub : ∀ path, paths path → others path) :
    view.Extends s s' others :=
  ⟨fun p => (h.kept p).mono hsub, h.follows⟩

theorem Extends.trans (h : view.Extends s t paths) (h' : view.Extends t s' paths) :
    view.Extends s s' paths :=
  ⟨fun p => (h.kept p).trans (h'.kept p) h'.follows, h.follows.trans h'.follows⟩

theorem Puts.extends {path : String} (h : view.Puts s s' path p .directory)
    (hnone : view.entry? s p = none) (hpath : paths path) : view.Extends s s' paths where
  kept q := by
    by_cases hq : q = p
    · subst hq
      exact .inr ⟨hnone, h.entry, path, hpath, h.place⟩
    · exact .inl (h.others q hq)
  follows := h.follows

end FileView

/-! ## File systems -/

/-- The file system does what its operations are said to do, as far as can be seen. -/
structure FileSystem.Lawful {σ : Type} (fs : FileSystem (StateM σ)) (view : FileView σ) : Prop where
  kind : ∀ path, Keeps (fs.kind? path)
  names : ∀ path, Keeps (fs.names path)
  read : ∀ path, Keeps (fs.read path)
  /-- What is read is what the file that a path leads to holds. -/
  contents : ∀ {path bytes s}, ((fs.read path).run s).1 = .ok bytes →
    ∃ p, view.place? s path = some p ∧ view.file? s p = some bytes
  /-- A file is created or replaced. -/
  write : ∀ {path contents s s'}, (fs.write path contents).run s = (.ok (), s') →
    ∃ p, view.Puts s s' path p (.file contents) ∧ view.entry? s p ≠ some .directory
  /-- A directory is created where nothing was. -/
  make : ∀ {path s s'}, (fs.makeDirectory path).run s = (.ok (), s') →
    ∃ p, view.Puts s s' path p .directory ∧ view.entry? s p = none
  unmade : ∀ {path error s s'}, (fs.makeDirectory path).run s = (.error error, s') → s' = s

namespace FileSystem.Lawful

variable {σ : Type} {fs : FileSystem (StateM σ)} {view : FileView σ}

def Around (outer path : String) : Prop :=
  Path.parent? path = some outer

theorem isDirectory (h : fs.Lawful view) (path : String) : Keeps (fs.isDirectory path) :=
  (h.kind path).bind fun _ => .pure _

theorem makeDirectory_extends (h : fs.Lawful view) {path : String} {paths : String → Prop}
    (hpath : paths path) {result : Except FileError Unit} {s s' : σ}
    (hrun : (fs.makeDirectory path).run s = (result, s')) : view.Extends s s' paths := by
  cases result with
  | error error =>
      rw [h.unmade hrun]
      exact .refl s paths
  | ok _ =>
      obtain ⟨p, hputs, hnone⟩ := h.make hrun
      exact hputs.extends hnone hpath

theorem ensureDirectory_extends (h : fs.Lawful view) {path : String} {paths : String → Prop}
    (hpath : paths path) {result : Except FileError Unit} {s s' : σ}
    (hrun : (fs.ensureDirectory path).run s = (result, s')) : view.Extends s s' paths := by
  rw [ensureDirectory] at hrun
  obtain ⟨made, t, hmake, hrest⟩ := run_bind_eq_iff.mp hrun
  refine (h.makeDirectory_extends hpath hmake).trans ?_
  split at hrest
  · obtain ⟨isThere, u, hlook, hpure⟩ := run_bind_eq_iff.mp hrest
    rw [(h.isDirectory path).state_eq hlook] at hpure
    exact .of_pure hpure
  · exact .of_pure hrest

/-- Making a directory and those around it adds directories that these paths lead to. -/
theorem makeDirectoriesFrom_extends (h : fs.Lawful view) {steps : Nat} {path : String}
    {result : Except FileError Unit} {s s' : σ}
    (hrun : (fs.makeDirectoriesFrom steps path).run s = (result, s')) :
    view.Extends s s' fun outer => Relation.ReflTransGen Around outer path := by
  induction steps generalizing path result s s' with
  | zero => exact .of_pure hrun
  | succ steps ih =>
      rw [makeDirectoriesFrom] at hrun
      split at hrun
      · exact .of_pure hrun
      obtain ⟨first, t, hfirst, hrest⟩ := run_bind_eq_iff.mp hrun
      refine (h.ensureDirectory_extends .refl hfirst).trans ?_
      split at hrest
      · split at hrest
        · exact .of_pure hrest
        next outer houter =>
          -- Those around the outer directory are around the path as well.
          obtain ⟨around, u, haround, hlast⟩ := run_bind_eq_iff.mp hrest
          refine ((ih haround).mono fun other hother => hother.tail houter).trans ?_
          split at hlast
          · exact .of_pure hlast
          · exact h.ensureDirectory_extends .refl hlast
      · exact .of_pure hrest

end FileSystem.Lawful

end ResourceTypes
