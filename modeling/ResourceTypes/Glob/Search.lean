import ResourceTypes.Files.Basic
import ResourceTypes.Glob.Pattern

/-!
# Search by pattern

The paths that a pattern stands for, in the order of their names. A literal part is looked up, and
any other part is compared with the names in a directory. A directory whose names cannot be read has
an error in the place of its answers, and the search goes on behind it.
-/

namespace ResourceTypes.Glob

structure Pattern where
  /-- The directory that the search starts from. -/
  start : String
  parts : List Part
  /-- Whether only directories are meant. -/
  directoriesOnly : Bool

structure EntryError where
  path : String
  error : FileError
  deriving DecidableEq

def EntryError.message (entry : EntryError) : String :=
  "attempting to read \x60" ++ entry.path ++ "\x60 resulted in an error: " ++ entry.error.message

/-- A path that a search yields, or an error. -/
abbrev Entry :=
  Except EntryError String

/-- The parts of a path. A slash at the end does not begin a part. -/
def partTexts (text : String) : List String :=
  let pieces := Path.pieces text
  if pieces.getLast? = some "" then pieces.dropLast else pieces

/-- Read a pattern, first as a whole and then part by part. -/
def readPattern (text : String) : Except PatternError Pattern := do
  let _ ← readPart text
  let start := if Path.isAbsolute text then "/" else "."
  let texts := partTexts text
  let parts ← (if Path.isAbsolute text then texts.drop 1 else texts).mapM readPart
  return ⟨start, parts, text.toList.getLast? = some '/'⟩

/-- A name in a directory. The current directory itself is not named. -/
def below (path name : String) : String :=
  if Path.isHere path then name else Path.join path name

variable {m : Type → Type} [Monad m]

/-- A path as an answer, unless it is no directory and only directories are meant. -/
def answer (fs : FileSystem m) (directoriesOnly : Bool) (path : String) : m (List Entry) := do
  if directoriesOnly && !(← fs.isDirectory path) then return [] else return [.ok path]

mutual

def searchBelow (fs : FileSystem m) (directoriesOnly : Bool) :
    Nat → List Part → String → m (List Entry)
  | 0, _, _ => return []
  | _ + 1, [], path => answer fs directoriesOnly path
  | depth + 1, part :: parts, path => do
    if part.isLiteral then
      let next := below path part.text
      let isThere ← if part.text = "." || part.text = ".." then fs.isDirectory path
        else do pure (← fs.kind? next).isSome
      if isThere then searchBelow fs directoriesOnly depth parts next else return []
    else if !(← fs.isDirectory path) then return []
    else match ← fs.names path with
      | .error error => return [.error ⟨path, error⟩]
      | .ok names =>
        let dots := if part.pieces.head? = some (.char '.') then
            ["..", "."].filter part.matches else []
        let special ← dots.mapM fun name =>
          searchBelow fs directoriesOnly depth parts (Path.join path name)
        let found ← (names.mergeSort fun a b => decide (a ≤ b)).mapM fun name =>
          searchAt fs directoriesOnly depth (part :: parts) (below path name) name
        return special.flatten ++ found.flatten

/-- The answers to the parts of a pattern of which the first is compared with the name of a path.
Directories at any depth are searched behind the path itself. -/
def searchAt (fs : FileSystem m) (directoriesOnly : Bool) :
    Nat → List Part → String → String → m (List Entry)
  | 0, _, _, _ => return []
  | _ + 1, [], _, _ => return []
  | depth + 1, part :: parts, path, name => do
    if part.isDirectories then
      let rest := parts.dropWhile (·.isDirectories)
      let isDirectory ← fs.isDirectory path
      let deeper ← if isDirectory then searchBelow fs directoriesOnly depth (part :: rest) path
        else pure []
      match rest with
      | [] => return if isDirectory then .ok path :: deeper else []
      | next :: others =>
        let here ← if next.matches name then searchBelow fs directoriesOnly depth others path
          else pure []
        return here ++ deeper
    else if part.matches name then searchBelow fs directoriesOnly depth parts path
    else return []

end

/-- No path is longer than this, so that no directory lies deeper. -/
def longestPath : Nat :=
  4096

/-- All paths that a pattern stands for, and the errors among them. -/
def search (fs : FileSystem m) (pattern : Pattern) : m (List Entry) :=
  searchBelow fs pattern.directoriesOnly (3 * longestPath) pattern.parts pattern.start

end ResourceTypes.Glob
