import ResourceTypes.CommandLine.Run

/-!
# The program

The file system of the machine, and the program that runs a command on it.
-/

namespace ResourceTypes.Program

def fileError : IO.Error → FileError
  | .noFileOrDirectory .. => .notFound
  | .permissionDenied _ 13 _ => .denied
  | .alreadyExists .. => .exists
  | .inappropriateType _ 20 _ => .notDirectory
  | .inappropriateType _ 21 _ => .isDirectory
  | error => .other (toString error)

def attempt {α : Type} (action : IO α) : IO (Except FileError α) := do
  match ← action.toBaseIO with
  | .ok value => return .ok value
  | .error error => return .error (fileError error)

/-- The files of the machine. A path starts from the current directory. -/
def files : FileSystem IO where
  kind? path := do
    if path = "" then return none
    match ← attempt (do ((← IO.currentDir) / path).metadata) with
    | .error _ => return none
    | .ok data => return some (if data.type matches .dir then .directory else .file)
  names path := attempt do
    let entries ← ((← IO.currentDir) / path).readDir
    return (entries.map (·.fileName)).toList
  read path := do
    if path = "" then return .error .notFound
    match ← attempt (do IO.FS.readBinFile ((← IO.currentDir) / path)) with
    | .error error => return .error error
    | .ok bytes => return .ok bytes.toList
  write path contents := attempt do
    IO.FS.writeBinFile ((← IO.currentDir) / path) ⟨contents.toArray⟩
  makeDirectory path := attempt do
    IO.FS.createDir ((← IO.currentDir) / path)

def usage : String :=
  "Usage: crd-typegen rust --crd <CRD>... --target <TARGET> [--version <VERSION>] [--pointer]\n" ++
  "       crd-typegen model --crd <CRD>... [--out <OUT>] [--version <VERSION>] [--pointer]"

end ResourceTypes.Program

def main (args : List String) : IO UInt32 := do
  match ResourceTypes.Arguments.read args with
  | .refused =>
    IO.eprintln ResourceTypes.Program.usage
    return 2
  | .help =>
    IO.println ResourceTypes.Program.usage
    return 0
  | .run command =>
    let outcome ← command.run ResourceTypes.Program.files
    IO.print outcome.out
    IO.eprint outcome.err
    return outcome.exit.toUInt32
