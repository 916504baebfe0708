import ResourceTypes.Text.Blank

/-!
# Paths

A path is a text with slashes between its parts. Joining does not tidy a path: a path that begins
with a slash replaces what it is joined to.
-/

namespace ResourceTypes.Path

/-- The path `path` seen from `base`. -/
def join (base path : String) : String :=
  if path.toList.head? = some '/' || base = "" then path
  else if base.toList.getLast? = some '/' then base ++ path
  else base ++ "/" ++ path

def isAbsolute (path : String) : Bool :=
  path.toList.head? = some '/'

/-- The texts between the slashes, some of which may be empty. -/
def pieces (path : String) : List String :=
  (Text.splitOn '/' path.toList).map String.ofList

/-- Empty pieces and single dots behind the first piece say nothing. -/
def isIdle (piece : String) : Bool :=
  piece = "" || piece = "."

def trimIdle (pieces : List String) : List String :=
  (pieces.reverse.dropWhile isIdle).reverse

/-- Whether the path says no more than a single dot. -/
def isHere (path : String) : Bool :=
  match pieces path with
  | "." :: rest => rest.all isIdle
  | _ => false

/-- The path without its last part, or none for a path without parts. -/
def parent? (path : String) : Option String :=
  match pieces path with
  | [] => none
  | first :: rest =>
    match trimIdle rest with
    | [] => if first = "" then none else some ""
    | parts =>
      match trimIdle parts.dropLast with
      | [] => some (if first = "" then "/" else first)
      | parts => some ("/".intercalate (first :: parts))

end ResourceTypes.Path
