import ResourceTypes.CommandLine.Arguments
import ResourceTypes.CommandLine.Failure
import ResourceTypes.Definition.Reading
import ResourceTypes.Model.Json
import ResourceTypes.Code.File
import ResourceTypes.Yaml.Document

/-!
# Running commands

A command finds its definitions, compiles them into a batch and writes the result. Nothing is
written before the batch is complete.
-/

namespace ResourceTypes

structure Outcome where
  exit : Nat
  out : String
  err : String

variable {m : Type → Type} [Monad m]

abbrev Attempt (m : Type → Type) (α : Type) :=
  ExceptT Failure m α

namespace Command

def attempt {α : Type} (action : m (Except FileError α)) (failure : FileError → Failure) :
    Attempt m α := do
  match ← ExceptT.lift action with
  | .ok value => return value
  | .error error => throw (failure error)

/-- What a search yields, unless it meets an error. -/
def expand (entry : Glob.Entry) : Attempt m String :=
  match entry with
  | .ok path => return path
  | .error error => throw (.badEntry error)

/-- The paths that a path or a pattern stands for. -/
def resolve (fs : FileSystem m) (path : String) : Attempt m (List String) := do
  if Glob.isPattern path then
    match Glob.readPattern path with
    | .error error => throw (.badPattern path error)
    | .ok pattern =>
      let found ← (← ExceptT.lift (Glob.search fs pattern)).mapM expand
      if found.isEmpty then throw (.noMatch path) else return found
  else return [path]

def load (fs : FileSystem m) (path : String) : Attempt m (List Definition) := do
  let bytes ← attempt (fs.read path) (.unreadable path)
  match Definition.ofDocuments path (Yaml.documents bytes) with
  | .ok definitions => return definitions
  | .error error => throw (.badDefinition path error)

/-- The batch of all definitions, which keep the order of their paths. -/
def compile (fs : FileSystem m) (input : InputSettings) : Attempt m Batch := do
  let paths ← input.definitions.mapM (resolve fs)
  let definitions ← paths.flatten.mapM (load fs)
  match (compileBatch input.options definitions.flatten).batch with
  | .ok batch => return batch
  | .error error => throw (.incompatible error)

/-- Write a file and create the directories around it. -/
def writeFile (fs : FileSystem m) (path contents : String) : Attempt m Unit := do
  if let some directory := Path.parent? path then
    attempt (fs.makeDirectories directory) (.notCreated directory)
  attempt (fs.write path contents.toUTF8.toList) (.notWritten path)

def output (fs : FileSystem m) (command : Command) : Attempt m String := do
  let batch ← compile fs command.input
  match command with
  | .rust _ target _ =>
    (Code.files batch).forM fun file => writeFile fs (Path.join target file.path) file.contents
    return ""
  | .model _ (some path) _ =>
    writeFile fs path batch.toJson.prettyText
    return ""
  | .model _ none _ => return batch.toJson.prettyText ++ "\n"

def linesText (lines : List String) : String :=
  String.join (lines.map (· ++ "\n"))

/-- Run a command. One that does nothing describes itself. -/
def run (fs : FileSystem m) (command : Command) : m Outcome := do
  if command.noOp then return ⟨0, "", linesText (command.description.lines 0 "" "")⟩
  match ← (output fs command).run with
  | .ok text => return ⟨0, text, ""⟩
  | .error failure => return ⟨1, "", failure.text⟩

end Command

end ResourceTypes
