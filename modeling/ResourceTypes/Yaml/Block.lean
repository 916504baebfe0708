import ResourceTypes.Yaml.Cursor

/-!
# Block scalars

The lines of a block scalar are those indented at least as far as its first one, or as its header
says. A literal block keeps its line ends, and a folded one joins lines of text by blanks.
-/

namespace ResourceTypes.Yaml.Block

/-- What becomes of the line ends behind the last line. -/
inductive Chomping
  | strip
  | clip
  | keep
  deriving DecidableEq

structure Header where
  chomping : Chomping
  /-- Columns that the lines are indented beyond the block around them, where the header says it. -/
  increment : Option Nat

def chomping? : Char → Option Chomping
  | '+' => some .keep
  | '-' => some .strip
  | _ => none

def increment? (c : Char) : Option Nat :=
  if c.isDigit then some (c.toNat - 48) else none

/-- Read the header behind its indicator, up to the end of the line. It may hold one chomping mark
and one digit other than zero, in any order. -/
def readHeader (c : Cursor) : Option (Header × Cursor) := do
  let first := c.rest.head?
  let second := (c.rest.drop 1).head?
  let (chomping, increment, count) := match first.bind chomping?, first.bind increment? with
    | some chomping, _ =>
      match second.bind increment? with
      | some n => (chomping, some n, 2)
      | none => (chomping, none, 1)
    | none, some n =>
      match second.bind chomping? with
      | some chomping => (chomping, some n, 2)
      | none => (Chomping.clip, some n, 1)
    | none, none => (.clip, none, 0)
  if increment = some 0 then none
  let c := (c.move count).moveWhile isBlank
  let c := if c.rest.head? = some '#' then c.moveWhile fun x => !isBreak x else c
  if !atLineEnd c.rest then none
  return (⟨chomping, increment⟩, if c.rest.isEmpty then c else c.nextLine)

structure Margin where
  breaks : List Char
  /-- The furthest column that the indentation of one of the lines reaches. -/
  deepest : Nat
  cursor : Cursor

/-- Read indentation and empty lines. Where the indentation is known, only its columns are read.
No tabulator may stand among them. -/
def readMargin (indent : Option Nat) (deepest line column : Nat) : List Char → Option Margin
  | [] => some ⟨[], max deepest column, ⟨[], line, column⟩⟩
  | c :: rest =>
    let inside := indent.all (column < ·)
    if inside && c = ' ' then readMargin indent deepest line (column + 1) rest
    else if inside && c = '\t' then none
    else if isBreak c then do
      let margin ← readMargin indent (max deepest column) (line + 1) 0 rest
      return { margin with breaks := c :: margin.breaks }
    else some ⟨[], max deepest column, ⟨c :: rest, line, column⟩⟩

def marginAt (indent : Option Nat) (c : Cursor) : Option Margin :=
  readMargin indent 0 c.line c.column c.rest

structure Tail where
  lineEnd : List Char
  empty : List Char

/-- What stands between two lines. Only lines that begin with text are folded. -/
def Tail.joined (tail : Tail) (folded : Bool) : List Char :=
  if folded && tail.lineEnd = ['\n'] then
    if tail.empty.isEmpty then [' '] else tail.empty
  else tail.lineEnd ++ tail.empty

def Tail.chomped (tail : Tail) : Chomping → List Char
  | .strip => []
  | .clip => tail.lineEnd
  | .keep => tail.lineEnd ++ tail.empty

/-- Read the lines of a block, each of which takes a character at least. `text` is what stands in
front of them, last character first, and `blank` says whether its last line begins with a blank. -/
def readLines (folded : Bool) (chomping : Chomping) (indent : Nat) :
    Nat → List Char → Bool → Tail → Cursor → Option (List Char × Cursor)
  | 0, _, _, _, _ => none
  | steps + 1, text, blank, tail, c =>
    if c.column = indent && !c.rest.isEmpty then do
      let beginsBlank := c.rest.head?.any isBlank
      let between := tail.joined (folded && !blank && !beginsBlank)
      let line := c.rest.takeWhile fun x => !isBreak x
      let c := c.move line.length
      let lineEnd := c.rest.take 1
      let margin ← marginAt (some indent) (if lineEnd.isEmpty then c else c.nextLine)
      readLines folded chomping indent steps (line.reverse ++ between.reverse ++ text) beginsBlank
        ⟨lineEnd, margin.breaks⟩ margin.cursor
    else some (text.reverse ++ tail.chomped chomping, c)

/-- The block scalar at the cursor, which stands at its indicator, in a text of `limit` characters.
Its lines are indented further than the block collection at the column `outer`, and by one column in
any case. -/
def read (limit : Nat) (folded : Bool) (outer : Option Nat) (c : Cursor) :
    Option (List Char × Cursor) := do
  let (header, c) ← readHeader (c.move 1)
  let known := header.increment.map (outer.getD 0 + ·)
  let margin ← marginAt known c
  let least := (outer.map (· + 1)).getD 0
  let indent := known.getD (max margin.deepest (max least 1))
  readLines folded header.chomping indent (limit + 1) [] false ⟨[], margin.breaks⟩
    margin.cursor

end ResourceTypes.Yaml.Block
