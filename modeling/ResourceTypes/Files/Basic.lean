import ResourceTypes.Path

/-!
# File systems

What the program does with files, over any monad: the operations of a file system and what is built
from them.
-/

namespace ResourceTypes

inductive FileError
  | notFound
  | denied
  | exists
  | notDirectory
  | isDirectory
  /-- Anything else, as the system words it. -/
  | other (message : String)
  deriving DecidableEq

def FileError.message : FileError → String
  | .notFound => "No such file or directory (os error 2)"
  | .denied => "Permission denied (os error 13)"
  | .exists => "File exists (os error 17)"
  | .notDirectory => "Not a directory (os error 20)"
  | .isDirectory => "Is a directory (os error 21)"
  | .other message => message

inductive EntryKind
  | file
  | directory
  deriving DecidableEq

structure FileSystem (m : Type → Type) where
  /-- What is at a path, if anything. -/
  kind? : String → m (Option EntryKind)
  /-- The names in a directory, in any order. -/
  names : String → m (Except FileError (List String))
  read : String → m (Except FileError (List UInt8))
  /-- Create a file or replace what it holds. -/
  write : String → List UInt8 → m (Except FileError Unit)
  /-- Create a directory inside one that is there. -/
  makeDirectory : String → m (Except FileError Unit)

namespace FileSystem

variable {m : Type → Type} [Monad m]

def isDirectory (fs : FileSystem m) (path : String) : m Bool := do
  return (← fs.kind? path) = some .directory

/-- Create a directory unless it is there already. -/
def ensureDirectory (fs : FileSystem m) (path : String) : m (Except FileError Unit) := do
  match ← fs.makeDirectory path with
  | .error .exists => return if ← fs.isDirectory path then .ok () else .error .exists
  | result => return result

/-- Create a directory and those around it. The length of the path bounds their number. -/
def makeDirectoriesFrom (fs : FileSystem m) : Nat → String → m (Except FileError Unit)
  | 0, _ => return .error .notFound
  | steps + 1, path => do
    if path = "" then return .ok ()
    match ← fs.ensureDirectory path with
    | .error .notFound =>
      match Path.parent? path with
      | none => return .error .notFound
      | some outer =>
        match ← fs.makeDirectoriesFrom steps outer with
        | .error error => return .error error
        | .ok () => fs.ensureDirectory path
    | result => return result

def makeDirectories (fs : FileSystem m) (path : String) : m (Except FileError Unit) :=
  fs.makeDirectoriesFrom (path.length + 1) path

end FileSystem

end ResourceTypes
