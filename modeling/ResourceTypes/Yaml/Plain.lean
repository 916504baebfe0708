import ResourceTypes.Yaml.Gap

/-!
# Plain scalars

A plain scalar has no quotes. It ends before a colon with a gap behind it, before a comment, before
a mark of documents, before a line that is not indented enough, and in flow collections before their
punctuation.
-/

namespace ResourceTypes.Yaml

def isFlowMark (c : Char) : Bool :=
  c = ',' || c = '[' || c = ']' || c = '\x7b' || c = '\x7d'

namespace Plain

/-- Whether a colon inside a flow collection would part a key from nothing. -/
def badColon (rest : List Char) : Bool :=
  match rest with
  | c :: _ => isFlowMark c || c = '?'
  | [] => false

def word (flow : Bool) : List Char → Option (List Char)
  | [] => some []
  | c :: rest =>
    if isGap c then some []
    else if flow && c = ':' && badColon rest then none
    else if (c = ':' && atGap rest) || (flow && isFlowMark c) then some []
    else (word flow rest).map (c :: ·)

structure Scan where
  text : List Char
  /-- Whether a new line begins between the last word and the cursor. -/
  broken : Bool
  cursor : Cursor

/-- Read word after word. `least` is the first column at which a further line may begin, `taken` is
the text so far, last character first, and `gap` stands in front of the next word. -/
def readWords (flow : Bool) (least : Nat) : Nat → List Char → Gap → Cursor → Option Scan
  | 0, taken, gap, c => some ⟨taken.reverse, gap.isBroken, c⟩
  | steps + 1, taken, gap, c =>
    if c.atDocumentMark || c.rest.head? = some '#' then some ⟨taken.reverse, gap.isBroken, c⟩
    else do
      let word ← word flow c.rest
      if word.isEmpty then return ⟨taken.reverse, gap.isBroken, c⟩
      let taken := word.reverse ++ gap.folded.reverse ++ taken
      let c := c.move word.length
      let (gap, next) ← c.gap least
      if gap.blanks.isEmpty && !gap.isBroken then return ⟨taken.reverse, false, c⟩
      if !flow && next.column < least then return ⟨taken.reverse, gap.isBroken, next⟩
      readWords flow least steps taken gap next

/-- The plain scalar at the cursor. Every word takes a character, so a text of `limit` characters
bounds their number. -/
def read (limit : Nat) (flow : Bool) (least : Nat) (c : Cursor) : Option Scan :=
  readWords flow least (limit + 1) [] .empty c

end Plain

end ResourceTypes.Yaml
