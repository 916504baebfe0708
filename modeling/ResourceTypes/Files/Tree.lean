import ResourceTypes.Files.Basic

/-!
# File trees

A file system as a value: the files and directories below the current directory, each under the list
of names that lead to it. Outside of the current directory there are directories without files. What
is locked is there, but neither the names in it nor its contents can be read.
-/

namespace ResourceTypes

inductive FileEntry
  | file (contents : List UInt8)
  | directory
  deriving DecidableEq

structure FileTree where
  entries : List (List String × FileEntry)
  locked : List (List String) := []

namespace FileTree

def empty : FileTree :=
  { entries := [] }

/-- The entry under a list of names. The current directory is under the empty list. -/
def entry? (tree : FileTree) : List String → Option FileEntry
  | [] => some .directory
  | names => tree.entries.lookup names

def insert (tree : FileTree) (names : List String) (entry : FileEntry) : FileTree :=
  { tree with entries := (names, entry) :: tree.entries.filter fun e => e.1 ≠ names }

def lock (tree : FileTree) (names : List String) : FileTree :=
  { tree with locked := names :: tree.locked }

def steps (path : String) : List String :=
  (Path.pieces path).filter (· ≠ "")

def endsWithSlash (path : String) : Bool :=
  path.toList.getLast? = some '/'

/-- A place in the tree, or none for any directory outside of it. -/
abbrev Place := Option (List String)

def entryAt (tree : FileTree) : Place → Option FileEntry
  | none => some .directory
  | some names => tree.entry? names

def outer : Place → Place
  | none | some [] => none
  | some names => some names.dropLast

/-- Walk from one place to another. Every place before a step has to be a directory. -/
def walk (tree : FileTree) (place : Place) : List String → Except FileError Place
  | [] => if (tree.entryAt place).isSome then .ok place else .error .notFound
  | step :: rest =>
    match tree.entryAt place with
    | none => .error .notFound
    | some (.file _) => .error .notDirectory
    | some .directory =>
      if step = "." then walk tree place rest
      else if step = ".." then walk tree (outer place) rest
      else match place with
        | none => .error .notFound
        | some names => walk tree (some (names ++ [step])) rest

def origin (path : String) : Place :=
  if Path.isAbsolute path then none else some []

/-- The place that a path leads to. A slash at the end asks for a directory, as a dot does. -/
def find (tree : FileTree) (path : String) : Except FileError Place :=
  if path = "" then .error .notFound
  else tree.walk (origin path) (steps path ++ if endsWithSlash path then ["."] else [])

/-- The names that a path leads to, whether or not something is there, unless its last step is made
of dots. -/
def findNew (tree : FileTree) (path : String) (dots : FileError) :
    Except FileError (List String) := do
  match (steps path).getLast? with
  | none => .error (if path = "" then .notFound else dots)
  | some last =>
    let place ← tree.walk (origin path) (steps path).dropLast
    if tree.entryAt place ≠ some .directory then .error .notDirectory
    else if last = "." || last = ".." then .error dots
    else match place with
      | none => .error .notFound
      | some names => return names ++ [last]

def kind? (tree : FileTree) (path : String) : Option EntryKind :=
  match tree.find path with
  | .error _ => none
  | .ok place =>
    match tree.entryAt place with
    | some (.file _) => some .file
    | some .directory => some .directory
    | none => none

def isLocked (tree : FileTree) (place : Place) : Bool :=
  place.any (tree.locked.contains ·)

def names (tree : FileTree) (path : String) : Except FileError (List String) := do
  let place ← tree.find path
  match tree.entryAt place with
  | none => .error .notFound
  | some (.file _) => .error .notDirectory
  | some .directory =>
    if tree.isLocked place then .error .denied
    else match place with
      | none => return []
      | some names =>
        return tree.entries.filterMap fun e => if e.1.dropLast = names then e.1.getLast? else none

def read (tree : FileTree) (path : String) : Except FileError (List UInt8) := do
  let place ← tree.find path
  if tree.isLocked place then .error .denied
  else match tree.entryAt place with
    | none => .error .notFound
    | some .directory => .error .isDirectory
    | some (.file contents) => return contents

/-- Only a path without a slash at its end can name a file to write. -/
def write (tree : FileTree) (path : String) (contents : List UInt8) :
    Except FileError FileTree := do
  let names ← tree.findNew path .isDirectory
  if endsWithSlash path || tree.entry? names = some .directory then .error .isDirectory
  else return tree.insert names (.file contents)

def makeDirectory (tree : FileTree) (path : String) : Except FileError FileTree := do
  let names ← tree.findNew path .exists
  match tree.entry? names with
  | some _ => .error .exists
  | none => return tree.insert names .directory

def update (change : FileTree → Except FileError FileTree) :
    StateM FileTree (Except FileError Unit) := do
  match change (← get) with
  | .ok tree =>
    set tree
    return .ok ()
  | .error error => return .error error

/-- A tree as the state of a program. -/
def system : FileSystem (StateM FileTree) where
  kind? path := do return (← get).kind? path
  names path := do return (← get).names path
  read path := do return (← get).read path
  write path contents := update (·.write path contents)
  makeDirectory path := update (·.makeDirectory path)

def place (tree : FileTree) (path : String) (contents : List UInt8) : FileTree :=
  let names := (Path.pieces path).filter fun step => step ≠ "" && step ≠ "."
  let outer := (List.range names.length).map names.take
  let tree := outer.foldl (fun tree names =>
    if (tree.entry? names).isSome then tree else tree.insert names .directory) tree
  tree.insert names (.file contents)

def files (tree : FileTree) : List (String × List UInt8) :=
  let found := tree.entries.filterMap fun e =>
    match e.2 with
    | .file contents => some ("/".intercalate e.1, contents)
    | .directory => none
  found.mergeSort fun a b => decide (a.1 ≤ b.1)

end FileTree

end ResourceTypes
