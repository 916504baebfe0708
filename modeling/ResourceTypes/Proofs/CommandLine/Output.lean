import ResourceTypes.Proofs.CommandLine.Arguments
import ResourceTypes.Proofs.CommandLine.Inputs
import ResourceTypes.Proofs.Files.Tree

/-! # What commands write

A command writes nothing before its batch is complete. What it writes then is put in place one
output after the other, each with the directories around it, and nothing else changes.
-/

namespace ResourceTypes

open FileSystem.Lawful (Around)

/-! ## Outputs -/

section Written

variable {σ : Type} {view : FileView σ} {s t u s' : σ}

def AroundOutput (outputs : List (String × List UInt8)) (path : String) : Prop :=
  ∃ output ∈ outputs, Relation.TransGen Around path output.1

/-- Whether the paths and contents of outputs have been written, one after the other, and all else
is as it was, unless it is a new directory around an output. -/
structure Written (view : FileView σ) (s s' : σ) (outputs : List (String × List UInt8)) : Prop where
  placed : ∀ output ∈ outputs, ∃ p, view.place? s' output.1 = some p ∧
    view.entry? s p ≠ some .directory
  /-- A file holds the last of the outputs that lead there. -/
  contents : ∀ before output after p, outputs = before ++ output :: after →
    view.place? s' output.1 = some p → (∀ later ∈ after, view.place? s' later.1 ≠ some p) →
      view.file? s' p = some output.2
  others : ∀ p, (∀ output ∈ outputs, view.place? s' output.1 ≠ some p) →
    view.Kept s s' (AroundOutput outputs) p
  follows : view.Follows s s'

theorem Written.nil (s : σ) : Written view s s [] where
  placed := nofun
  contents := by
    intro before output after p h
    simp at h
  others _ _ := .inl rfl
  follows _ _ h := h

section Outputs

variable {outputs : List (String × List UInt8)} {output : String × List UInt8} {p : view.Place}

/-- An output leads where it led when it was written. -/
theorem Written.place_eq (h : Written view s t outputs) (hfollows : view.Follows t s')
    (hmem : output ∈ outputs) (hp : view.place? s' output.1 = some p) :
    view.place? t output.1 = some p := by
  obtain ⟨q, hq, -⟩ := h.placed output hmem
  rw [hq, ← hfollows _ q hq, hp]

/-- No directory is replaced. -/
theorem Written.directory (h : Written view s t outputs)
    (hd : view.entry? s p = some .directory) : view.entry? t p = some .directory := by
  refine (h.others p fun output hmem hp => ?_).directory hd
  obtain ⟨q, hq, hnew⟩ := h.placed output hmem
  rw [hp] at hq
  cases hq
  exact hnew hd

/-- What can be read of the last output at a place is what was written. -/
theorem Written.read_eq {fs : FileSystem (StateM σ)} (hfs : fs.Lawful view)
    {before after : List (String × List UInt8)}
    (h : Written view s s' (before ++ output :: after))
    (hlast : ∀ later ∈ after, view.place? s' later.1 ≠ view.place? s' output.1) {bytes : List UInt8}
    (hread : ((fs.read output.1).run s').1 = .ok bytes) : bytes = output.2 := by
  obtain ⟨p, hp, hbytes⟩ := hfs.contents hread
  rw [hp] at hlast
  rw [h.contents before output after p rfl hp hlast] at hbytes
  exact (Option.some.inj hbytes).symm

/-- One more output keeps what the others did. -/
theorem Written.concat (h : Written view s t outputs)
    (hmade : view.Extends t u fun path => Relation.TransGen Around path output.1)
    (hput : view.Puts u s' output.1 p (.file output.2)) (hold : view.entry? u p ≠ some .directory) :
    Written view s s' (outputs ++ [output]) := by
  have hfollows : view.Follows t s' := hmade.follows.trans hput.follows
  refine ⟨?_, ?_, ?_, h.follows.trans hfollows⟩
  · intro other hother
    rcases List.mem_append.mp hother with hmem | hlast
    · obtain ⟨q, hq, hnew⟩ := h.placed other hmem
      exact ⟨q, hfollows _ q hq, hnew⟩
    · obtain rfl := List.mem_singleton.mp hlast
      exact ⟨p, hput.place, fun hd => hold ((hmade.kept p).directory (h.directory hd))⟩
  · intro before other after q heq hq hlater
    rcases List.eq_nil_or_concat after with rfl | ⟨after, last, rfl⟩
    · obtain ⟨-, hlast⟩ := List.append_inj' heq rfl
      obtain rfl := List.singleton_inj.mp hlast
      rw [hput.place] at hq
      cases hq
      rw [FileView.file?, hput.entry]
    · rw [List.concat_eq_append, ← List.cons_append, ← List.append_assoc] at heq
      obtain ⟨rfl, hlast⟩ := List.append_inj' heq rfl
      obtain rfl := List.singleton_inj.mp hlast
      -- The last output is elsewhere, so the place holds what it did before.
      have hqp : q ≠ p := by
        rintro rfl
        exact hlater output (by simp) hput.place
      have hheld : view.file? t q = some other.2 := by
        refine h.contents before other after q rfl (h.place_eq hfollows (by simp) hq) ?_
        intro later hmem hp
        exact hlater later (by simp [hmem]) (hfollows _ q hp)
      rw [FileView.file?, hput.others q hqp, ← FileView.file?, (hmade.kept q).file?_eq, hheld]
  · intro q hq
    have hqp : q ≠ p := by
      rintro rfl
      exact hq output (by simp) hput.place
    have hbefore : view.Kept s t (AroundOutput (outputs ++ [output])) q := by
      refine (h.others q fun other hmem hp => hq other (by simp [hmem]) (hfollows _ q hp)).mono ?_
      rintro path ⟨other, hmem, haround⟩
      exact ⟨other, List.mem_append_left _ hmem, haround⟩
    have hmiddle : view.Kept t u (AroundOutput (outputs ++ [output])) q :=
      (hmade.kept q).mono fun path haround => ⟨output, by simp, haround⟩
    exact (hbefore.trans hmiddle hmade.follows).trans (.inl (hput.others q hqp)) hput.follows

end Outputs

end Written

/-! ## Attempts that succeed -/

section Attempts

variable {σ α β : Type} {s s' : σ}

theorem exists_run_of_bind {x : Attempt (StateM σ) α} {f : α → Attempt (StateM σ) β} {b : β}
    (h : (x >>= f).run.run s = (.ok b, s')) :
    ∃ a t, x.run.run s = (.ok a, t) ∧ (f a).run.run t = (.ok b, s') := by
  change StateT.run (ExceptT.bindCont f (x.run.run s).1) (x.run.run s).2 = _ at h
  rcases hx : x.run.run s with ⟨failure | a, t⟩
  · rw [hx] at h
    cases h
  · rw [hx] at h
    exact ⟨a, t, rfl, h⟩

theorem run_of_attempt {action : StateM σ (Except FileError α)} {failure : FileError → Failure}
    {a : α} (h : (Command.attempt action failure).run.run s = (.ok a, s')) :
    action.run s = (.ok a, s') := by
  obtain ⟨result, t, hlift, hrest⟩ := exists_run_of_bind h
  have haction : action.run s = (result, t) := by
    have hparts := Prod.mk.inj hlift
    exact Prod.ext (Except.ok.inj hparts.1) hparts.2
  rw [haction]
  cases result with
  | error error => cases hrest
  | ok value =>
      cases hrest
      rfl

end Attempts

/-! ## Commands -/

namespace Command

variable {σ : Type} {fs : FileSystem (StateM σ)} {view : FileView σ} {s s' : σ}

def outputs (target : String) (b : Batch) : List (String × List UInt8) :=
  (Code.files b).map fun file => (Path.join target file.path, file.contents.toUTF8.toList)

/-- A file that is written is one more output. -/
theorem writeFile_written (h : fs.Lawful view) {t : σ} {path contents : String}
    {before : List (String × List UInt8)} (hbefore : Written view s t before)
    (hrun : (writeFile fs path contents).run.run t = (.ok (), s')) :
    Written view s s' (before ++ [(path, contents.toUTF8.toList)]) := by
  rw [writeFile] at hrun
  have hwrite {u : σ}
      (hmade : view.Extends t u fun outer => Relation.TransGen Around outer path)
      (hlast : (attempt (fs.write path contents.toUTF8.toList) (.notWritten path)).run.run u =
        (.ok (), s')) : Written view s s' (before ++ [(path, contents.toUTF8.toList)]) := by
    obtain ⟨p, hput, hold⟩ := h.write (run_of_attempt hlast)
    exact hbefore.concat hmade hput hold
  split at hrun
  next directory hdirectory =>
    obtain ⟨_, u, hmake, hlast⟩ := exists_run_of_bind hrun
    refine hwrite ?_ hlast
    exact (h.makeDirectoriesFrom_extends (run_of_attempt hmake)).mono fun outer houter =>
      Relation.TransGen.tail' houter hdirectory
  · exact hwrite (.refl t _) hrun

theorem forM_written (h : fs.Lawful view) {target : String} {files : List Code.OutputFile} {t : σ}
    {before : List (String × List UInt8)} (hbefore : Written view s t before)
    (hrun : (files.forM fun file =>
      writeFile fs (Path.join target file.path) file.contents).run.run t = (.ok (), s')) :
    Written view s s' (before ++
      files.map fun file => (Path.join target file.path, file.contents.toUTF8.toList)) := by
  induction files generalizing t before with
  | nil =>
      cases hrun
      rw [List.map_nil, List.append_nil]
      exact hbefore
  | cons file files ih =>
      obtain ⟨_, u, hfile, hrest⟩ := exists_run_of_bind hrun
      have hwritten := ih (writeFile_written h hbefore hfile) hrest
      rwa [List.append_assoc] at hwritten

/-- Without a batch, nothing is written. -/
theorem output_of_not_compiles (h : fs.Lawful view) {command : Command}
    (hnone : ∀ b, ¬ Compiles fs s command.input b) :
    ∃ failure, (output fs command).run.run s = (.error failure, s) := by
  obtain ⟨hstate, hvalue⟩ := reads_compile h command.input (s := s)
  rcases hcompile : (compile fs command.input).run.run s with ⟨failure | b, t⟩
  · rw [hcompile] at hstate
    cases hstate
    exact ⟨failure, run_bind_of_error hcompile⟩
  · rw [hcompile] at hvalue
    exact absurd ((hvalue b).mp rfl) (hnone b)

/-- With a batch, all of its files are written. -/
theorem written_of_output (h : fs.Lawful view) {input : InputSettings} {target text : String}
    {noOp : Bool} (hrun : (output fs (.rust input target noOp)).run.run s = (.ok text, s')) :
    ∃ b, Compiles fs s input b ∧ Written view s s' (outputs target b) := by
  obtain ⟨b, t, hcompile, hrest⟩ := exists_run_of_bind hrun
  obtain ⟨hb, rfl⟩ := (reads_compile h input).run_eq_iff.mp hcompile
  obtain ⟨_, u, hwrite, hpure⟩ := exists_run_of_bind hrest
  cases hpure
  exact ⟨b, hb, forM_written h (.nil t) hwrite⟩

end Command

/-- Whatever fails before there is a batch leaves the file system as it is. A command that succeeds
in writing modules leaves the modules of its batch, which is the one of its definitions in the order
of the arguments, and everything else as it was. A command that does nothing changes nothing. -/
theorem run_writes_only_outputs {σ : Type} {fs : FileSystem (StateM σ)} {view : FileView σ}
    (h : fs.Lawful view) {arguments : List String} {command : Command}
    (harguments : Arguments.read arguments = .run command) {s s' : σ} {outcome : Outcome}
    (hrun : (command.run fs).run s = (outcome, s')) :
    command.input.definitions = Arguments.definitionsGiven false arguments.tail ∧
      (command.noOp = true → s' = s ∧ outcome.exit = 0) ∧
      ((∀ b, ¬ Command.Compiles fs s command.input b) →
        s' = s ∧ (command.noOp = false → outcome.exit = 1)) ∧
      ∀ input target, command = .rust input target false → outcome.exit = 0 →
        ∃ b, Command.Compiles fs s input b ∧ Written view s s' (Command.outputs target b) := by
  refine ⟨Arguments.read_definitions harguments, ?_⟩
  cases hnoOp : command.noOp with
  | true =>
      rw [Command.run, if_pos hnoOp] at hrun
      cases hrun
      refine ⟨fun _ => ⟨rfl, rfl⟩, fun _ => ⟨rfl, nofun⟩, ?_⟩
      rintro input target rfl
      cases hnoOp
  | false =>
      rw [Command.run, if_neg (by simp [hnoOp])] at hrun
      obtain ⟨result, t, houtput, hend⟩ := run_bind_eq_iff.mp hrun
      refine ⟨nofun, fun hnone => ?_, ?_⟩
      · obtain ⟨failure, hfailure⟩ := Command.output_of_not_compiles h hnone
        rw [hfailure] at houtput
        cases houtput
        cases hend
        exact ⟨rfl, fun _ => rfl⟩
      · rintro input target rfl hexit
        cases result with
        | error failure =>
            cases hend
            cases hexit
        | ok text =>
            cases hend
            exact Command.written_of_output h houtput

/-! ## A run -/

def sampleText : String :=
  "kind: CustomResourceDefinition\nspec:\n  group: shop.io\n  names:\n    kind: Widget\n" ++
  "    plural: widgets\n  versions:\n  - name: v1\n    served: true\n    storage: true\n" ++
  "    schema:\n      openAPIV3Schema:\n        type: object\n"

def sampleTree : FileTree :=
  FileTree.empty.place "widget.yaml" sampleText.toUTF8.toList

def sampleCommand (noOp : Bool) : Command :=
  .rust ⟨["widget.yaml"], none, false⟩ "out" noOp

theorem sampleTree_outputs :
    Arguments.read ["rust", "--crd", "widget.yaml", "--target", "out"] =
        .run (sampleCommand false) ∧
      (((sampleCommand false).run FileTree.system).run sampleTree).1.exit = 0 ∧
      ∃ b, Command.Compiles FileTree.system sampleTree (sampleCommand false).input b ∧
        Written FileTree.view sampleTree
          (((sampleCommand false).run FileTree.system).run sampleTree).2
          (Command.outputs "out" b) := by
  have hread : Arguments.read ["rust", "--crd", "widget.yaml", "--target", "out"] =
      .run (sampleCommand false) := rfl
  have hexit : (((sampleCommand false).run FileTree.system).run sampleTree).1.exit = 0 := by
    decide +kernel
  obtain ⟨-, -, -, hwrites⟩ := run_writes_only_outputs FileTree.system_lawful hread
    (s := sampleTree) rfl
  exact ⟨hread, hexit, hwrites _ _ rfl hexit⟩

/-- A command that does nothing succeeds, and the files of its batch are not there. -/
theorem noOp_leaves_outputs_out :
    Arguments.read ["rust", "--crd", "widget.yaml", "--target", "out", "--no-op"] =
        .run (sampleCommand true) ∧
      (((sampleCommand true).run FileTree.system).run sampleTree).1.exit = 0 ∧
      ∃ b, Command.Compiles FileTree.system sampleTree (sampleCommand true).input b ∧
        ¬ Written FileTree.view sampleTree
          (((sampleCommand true).run FileTree.system).run sampleTree).2
          (Command.outputs "out" b) := by
  refine ⟨rfl, rfl, ?_⟩
  have hmissing : (match ((Command.compile FileTree.system (sampleCommand true).input).run.run
      sampleTree).1 with
    | .ok b =>
      (Command.outputs "out" b).any fun output => (sampleTree.find output.1).toOption.isNone
    | .error _ => false) = true := by
    decide +kernel
  split at hmissing
  next b hcompile =>
    have hb := ((Command.reads_compile FileTree.system_lawful _).2 b).mp hcompile
    refine ⟨b, hb, fun hwritten => ?_⟩
    obtain ⟨output, hmem, hnone⟩ := List.any_eq_true.mp hmissing
    obtain ⟨p, hp, -⟩ := hwritten.placed output hmem
    have hfound : (sampleTree.find output.1).toOption = some p := hp
    rw [hfound] at hnone
    cases hnone
  · cases hmissing

end ResourceTypes
