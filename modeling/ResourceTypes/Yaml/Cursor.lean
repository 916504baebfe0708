/-!
# Places in a text

A cursor is the rest of a text and the place where the rest begins. Lines end at a newline or at a
separator of lines or paragraphs.
-/

namespace ResourceTypes.Yaml

def isBreak (c : Char) : Bool :=
  c = '\n' || c = '\u2028' || c = '\u2029'

def isBlank (c : Char) : Bool :=
  c = ' ' || c = '\t'

def isGap (c : Char) : Bool :=
  isBlank c || isBreak c

/-- Whether no word begins here. -/
def atGap : List Char → Bool
  | [] => true
  | c :: _ => isGap c

/-- Whether the line ends here. -/
def atLineEnd : List Char → Bool
  | [] => true
  | c :: _ => isBreak c

structure Cursor where
  rest : List Char
  line : Nat
  column : Nat

namespace Cursor

def move (c : Cursor) (count : Nat) : Cursor :=
  { c with rest := c.rest.drop count, column := c.column + count }

def moveWhile (c : Cursor) (p : Char → Bool) : Cursor :=
  c.move (c.rest.takeWhile p).length

def nextLine (c : Cursor) : Cursor :=
  ⟨c.rest.drop 1, c.line + 1, 0⟩

/-- Whether the text goes on with a word of a mark alone, at the start of a line. -/
def atMark (c : Cursor) (mark : List Char) : Bool :=
  c.column = 0 && mark.isPrefixOf c.rest && atGap (c.rest.drop mark.length)

def atDocumentStart (c : Cursor) : Bool :=
  c.atMark ['-', '-', '-']

def atDocumentEnd (c : Cursor) : Bool :=
  c.atMark ['.', '.', '.']

def atDocumentMark (c : Cursor) : Bool :=
  c.atDocumentStart || c.atDocumentEnd

end Cursor

end ResourceTypes.Yaml
