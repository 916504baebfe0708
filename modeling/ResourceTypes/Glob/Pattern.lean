/-!
# Patterns of names

A star stands for any characters, a question mark for one, and brackets for one of those they hold
or for one that they do not hold. Two stars stand for directories at any depth and have to be a
whole part of a path.
-/

namespace ResourceTypes.Glob

inductive CharRange
  | one (c : Char)
  | fromTo (low high : Char)
  deriving DecidableEq

inductive Piece
  | char (c : Char)
  | anyChar
  | anyChars
  | directories
  | oneOf (ranges : List CharRange)
  | noneOf (ranges : List CharRange)
  deriving DecidableEq

inductive PatternError
  | tooManyStars (place : Nat)
  | partialStars (place : Nat)
  | badBrackets (place : Nat)
  deriving DecidableEq

def PatternError.place : PatternError → Nat
  | .tooManyStars place => place
  | .partialStars place => place
  | .badBrackets place => place

def PatternError.reason : PatternError → String
  | .tooManyStars _ => "wildcards are either regular \x60*\x60 or recursive \x60**\x60"
  | .partialStars _ => "recursive wildcards must form a single path component"
  | .badBrackets _ => "invalid range pattern"

def isPattern (path : String) : Bool :=
  path.toList.any fun c => c = '*' || c = '?' || c = '['

def ranges : List Char → List CharRange
  | low :: '-' :: high :: rest => .fromTo low high :: ranges rest
  | c :: rest => .one c :: ranges rest
  | [] => []

/-- The characters up to a closing bracket, of which there is one at least, and the rest behind the
bracket. -/
def splitBrackets : List Char → Option (List Char × List Char)
  | [] => none
  | first :: rest =>
    let more := rest.takeWhile (· ≠ ']')
    match rest.drop more.length with
    | [] => none
    | _ :: rest => some (first :: more, rest)

def readBrackets : List Char → Option (Piece × List Char)
  | '!' :: rest => (splitBrackets rest).map fun (cs, rest) => (.noneOf (ranges cs), rest)
  | rest => (splitBrackets rest).map fun (cs, rest) => (.oneOf (ranges cs), rest)

/-- Read two stars. `fresh` says whether they begin a part of a path, and `place` is where they
stand. A slash behind them belongs to them. -/
def readDirectories (fresh : Bool) (place : Nat) (rest : List Char) :
    Except PatternError (List Char) :=
  if !fresh then .error (.partialStars (place - 1))
  else match rest with
    | [] => .ok []
    | '/' :: rest => .ok rest
    | _ => .error (.partialStars (place + 2))

/-- Read the pieces of a pattern. `fresh` says whether a part of a path begins here, and `place`
counts the characters read. Every step takes a character at least. -/
def readPieces : Nat → Bool → Nat → List Char → Except PatternError (List Piece)
  | 0, _, _, _ => .ok []
  | _ + 1, _, _, [] => .ok []
  | steps + 1, fresh, place, c :: rest =>
    match c with
    | '?' => do return .anyChar :: (← readPieces steps false (place + 1) rest)
    | '*' =>
      let stars := 1 + (rest.takeWhile (· = '*')).length
      let behind := rest.drop (stars - 1)
      if 2 < stars then .error (.tooManyStars (place + 2))
      else if stars = 2 then do
        let left ← readDirectories fresh place behind
        let taken := rest.length + 1 - left.length
        return .directories :: (← readPieces steps true (place + taken) left)
      else do return .anyChars :: (← readPieces steps false (place + 1) rest)
    | '[' =>
      match readBrackets rest with
      | none => .error (.badBrackets place)
      | some (piece, left) => do
        let taken := rest.length + 1 - left.length
        return piece :: (← readPieces steps false (place + taken) left)
    | c => do return .char c :: (← readPieces steps (c = '/') (place + 1) rest)

structure Part where
  text : String
  pieces : List Piece

def readPart (text : String) : Except PatternError Part := do
  return ⟨text, ← readPieces text.length true 0 text.toList⟩

def Part.isDirectories (part : Part) : Bool :=
  part.pieces.contains .directories

def Part.isLiteral (part : Part) : Bool :=
  part.pieces.all fun
    | .char _ => true
    | _ => false

def CharRange.holds (c : Char) : CharRange → Bool
  | .one x => c = x
  | .fromTo low high => low ≤ c && c ≤ high

def Piece.holds (c : Char) : Piece → Bool
  | .char x => c = x
  | .oneOf ranges => ranges.any (·.holds c)
  | .noneOf ranges => !ranges.any (·.holds c)
  | _ => true

mutual

def matchesName : List Piece → List Char → Bool
  | [], name => name.isEmpty
  | .anyChars :: pieces, name => matchesTail pieces name
  | .directories :: pieces, name => matchesTail pieces name
  | piece :: pieces, name =>
    match name with
    | [] => false
    | c :: rest => piece.holds c && matchesName pieces rest
termination_by pieces name => (pieces.length, name.length, 0)

/-- Whether the pieces stand for the end of a name, however much of it goes in front. -/
def matchesTail (pieces : List Piece) : List Char → Bool
  | [] => matchesName pieces []
  | c :: rest => matchesName pieces (c :: rest) || matchesTail pieces rest
termination_by name => (pieces.length, name.length, 1)

end

def Part.matches (part : Part) (name : String) : Bool :=
  matchesName part.pieces name.toList

end ResourceTypes.Glob
