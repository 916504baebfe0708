import ResourceTypes.Yaml.Cursor

/-!
# Gaps between words

A gap is a run of blanks and breaks. Within a scalar that goes over several lines a gap is folded: a
single break stands for a blank, further breaks for themselves, and blanks next to breaks are lost.
-/

namespace ResourceTypes.Yaml

structure Gap where
  /-- Blanks in front of the first break. -/
  blanks : List Char
  breaks : List Char

namespace Gap

def empty : Gap :=
  ⟨[], []⟩

def isBroken (gap : Gap) : Bool :=
  !gap.breaks.isEmpty

def folded (gap : Gap) : List Char :=
  match gap.breaks with
  | [] => gap.blanks
  | ['\n'] => [' ']
  | '\n' :: more => more
  | breaks => breaks

/-- Read a gap. No tabulator may stand in the first `least` columns of a line that begins in it. -/
def read (least : Nat) (broken : Bool) (line column : Nat) : List Char → Option (Gap × Cursor)
  | [] => some (empty, ⟨[], line, column⟩)
  | c :: rest =>
    if isBreak c then do
      let (gap, cursor) ← read least true (line + 1) 0 rest
      return (⟨[], c :: gap.breaks⟩, cursor)
    else if isBlank c then
      if broken && c = '\t' && column < least then none
      else do
        let (gap, cursor) ← read least broken line (column + 1) rest
        return (if broken then gap else ⟨c :: gap.blanks, gap.breaks⟩, cursor)
    else some (empty, ⟨c :: rest, line, column⟩)

end Gap

def Cursor.gap (c : Cursor) (least : Nat) : Option (Gap × Cursor) :=
  Gap.read least false c.line c.column c.rest

def Cursor.breaks (c : Cursor) : Option (List Char × Cursor) := do
  let (gap, next) ← Gap.read 0 true c.line c.column c.rest
  return (gap.breaks, next)

/-- Move to the next token, over blanks, breaks and comments. A new line outside of flow collections
may begin with a key. Where a key may begin, a tabulator is no blank. A byte order mark is passed
over at the very start. -/
def Cursor.skipTo (flow keyAllowed comment : Bool) (line column : Nat) :
    List Char → Cursor × Bool
  | [] => (⟨[], line, column⟩, keyAllowed)
  | c :: rest =>
    if isBreak c then skipTo flow (keyAllowed || !flow) false (line + 1) 0 rest
    else if comment || c = ' ' || (c = '\t' && (flow || !keyAllowed)) ||
        (c = '\uFEFF' && line = 0 && column = 0) then
      skipTo flow keyAllowed comment line (column + 1) rest
    else if c = '#' then skipTo flow keyAllowed true line (column + 1) rest
    else (⟨c :: rest, line, column⟩, keyAllowed)

/-- The cursor at the next token, and whether a key may begin there. -/
def Cursor.toToken (c : Cursor) (flow keyAllowed : Bool) : Cursor × Bool :=
  skipTo flow keyAllowed false c.line c.column c.rest

end ResourceTypes.Yaml
