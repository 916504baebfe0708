import ResourceTypes.Yaml.Block
import ResourceTypes.Yaml.Plain
import ResourceTypes.Yaml.Source
import ResourceTypes.Yaml.Token

/-!
# The tokens of a source

A key is recognized only at the colon behind it. Until then the place where it may have begun is
remembered, one place for every open flow collection, and the colon puts the tokens of the key
there. A key stands on one line, and the colon follows within 1024 characters.
-/

namespace ResourceTypes.Yaml

/-- A place where a key may have begun. -/
structure Candidate where
  /-- How many tokens there are in front of it. -/
  before : Nat
  line : Nat
  column : Nat
  /-- Whether nothing but a key may stand there. -/
  required : Bool

def Candidate.isStale (candidate : Candidate) (c : Cursor) : Bool :=
  candidate.line < c.line || candidate.column + 1024 < c.column

/-- The tokens read so far and what the next ones depend on. -/
structure Reader where
  /-- The number of characters of the text. -/
  limit : Nat
  cursor : Cursor
  /-- Whether something that cannot be read follows the text. -/
  faulty : Bool
  /-- The tokens, the last one first. -/
  tokens : List Token
  count : Nat
  /-- The columns of the open block collections, the innermost one first. -/
  indents : List Nat
  keyAllowed : Bool
  candidate : Option Candidate
  /-- The candidates outside of the open flow collections, the innermost one first. -/
  outer : List (Option Candidate)

namespace Reader

def start (source : Source) : Reader :=
  ⟨source.chars.length, ⟨source.chars, 0, 0⟩, source.faulty, [], 0, [], true, none, []⟩

def inFlow (r : Reader) : Bool :=
  !r.outer.isEmpty

/-- The first column inside the innermost block collection. -/
def inside (r : Reader) : Nat :=
  (r.indents.head?.map (· + 1)).getD 0

def push (r : Reader) (token : Token) : Reader :=
  { r with tokens := token :: r.tokens, count := r.count + 1 }

/-- Put a token in front of the last `r.count - before` ones. -/
def insert (r : Reader) (before : Nat) (token : Token) : Reader :=
  let later := r.count - before
  { r with tokens := r.tokens.take later ++ token :: r.tokens.drop later, count := r.count + 1 }

/-- Take a token of `length` characters. -/
def pass (r : Reader) (length : Nat) (token : Token) : Reader :=
  { r.push token with cursor := r.cursor.move length }

def forget (r : Reader) (candidate : Option Candidate) : Option (Option Candidate) :=
  match candidate with
  | none => some none
  | some candidate =>
    if candidate.isStale r.cursor then if candidate.required then none else some none
    else some (some candidate)

/-- Forget the candidates whose colon can no longer follow. -/
def forgetStale (r : Reader) : Option Reader := do
  let candidate ← r.forget r.candidate
  let outer ← r.outer.mapM r.forget
  return { r with candidate := candidate, outer := outer }

/-- Give up the candidate of the innermost collection. -/
def giveUp (r : Reader) : Option Reader :=
  if r.candidate.any (·.required) then none else some { r with candidate := none }

/-- Remember this place where a key may begin. In a block collection a line that begins at its
column has to be a key. -/
def remember (r : Reader) : Option Reader :=
  if r.keyAllowed then do
    let c := r.cursor
    let required := !r.inFlow && r.indents.head? = some c.column
    let r ← r.giveUp
    return { r with candidate := some ⟨r.count, c.line, c.column, required⟩ }
  else some r

def opensBlock (r : Reader) (column : Nat) : Bool :=
  !r.inFlow && r.indents.head?.all (· < column)

def openBlock (r : Reader) (token : Token) : Reader :=
  let column := r.cursor.column
  if r.opensBlock column then { r.push token with indents := column :: r.indents } else r

def closeBlocks (r : Reader) (n : Nat) : Reader :=
  { r with tokens := List.replicate n .blockEnd ++ r.tokens, count := r.count + n,
           indents := r.indents.drop n }

/-- Close the block collections that lie deeper than the cursor. -/
def closeDeeper (r : Reader) : Reader :=
  if r.inFlow then r else r.closeBlocks (r.indents.takeWhile (r.cursor.column < ·)).length

def closeAll (r : Reader) : Reader :=
  if r.inFlow then r else r.closeBlocks r.indents.length

/-- What begins a part of the stream ends all that is open. -/
def interrupt (r : Reader) : Option Reader := do
  let r ← r.closeAll.giveUp
  return { r with keyAllowed := false }

def takeDirective (r : Reader) : Option Reader := do
  let r ← r.interrupt
  let (token, cursor) ← Token.readDirective r.cursor
  return { r.push token with cursor := cursor }

def takeMark (r : Reader) (token : Token) : Option Reader := do
  return (← r.interrupt).pass 3 token

def openFlow (r : Reader) (token : Token) : Option Reader := do
  let r ← r.remember
  return { r.pass 1 token with
    keyAllowed := true, candidate := none, outer := r.candidate :: r.outer }

def closeFlow (r : Reader) (token : Token) : Option Reader := do
  let r ← r.giveUp
  let r := { r.pass 1 token with keyAllowed := false }
  return match r.outer with
    | [] => r
    | candidate :: outer => { r with candidate := candidate, outer := outer }

def takeComma (r : Reader) : Option Reader := do
  return { (← r.giveUp).pass 1 .comma with keyAllowed := true }

def takeItem (r : Reader) : Option Reader := do
  if !r.inFlow && !r.keyAllowed then none
  let r ← (r.openBlock .blockSequence).giveUp
  return { r.pass 1 .item with keyAllowed := true }

def takeKey (r : Reader) : Option Reader := do
  if !r.inFlow && !r.keyAllowed then none
  let r ← (r.openBlock .blockMapping).giveUp
  return { r.pass 1 .key with keyAllowed := !r.inFlow }

/-- The colon of a value. Behind a candidate it makes a key of what began there. -/
def takeValue (r : Reader) : Option Reader :=
  match r.candidate with
  | some candidate =>
    let r := { r.insert candidate.before .key with candidate := none, keyAllowed := false }
    let r := if r.opensBlock candidate.column then
        { r.insert candidate.before .blockMapping with indents := candidate.column :: r.indents }
      else r
    some (r.pass 1 .value)
  | none => do
    if !r.inFlow && !r.keyAllowed then none
    return { (r.openBlock .blockMapping).pass 1 .value with keyAllowed := !r.inFlow }

def takeNode (r : Reader) (read : Cursor → Option (Token × Cursor)) : Option Reader := do
  let r ← r.remember
  let (token, cursor) ← read r.cursor
  return { r.push token with cursor := cursor, keyAllowed := false }

def takeName (r : Reader) (token : String → Token) : Option Reader :=
  r.takeNode fun c => do
    let (name, c) ← Token.readName (c.move 1)
    return (token name, c)

def takeTag (r : Reader) : Option Reader :=
  r.takeNode fun c => do
    let (tag, c) ← Tag.read r.inFlow c
    return (.tag tag, c)

def takeQuoted (r : Reader) (quote : Char) : Option Reader :=
  r.takeNode fun c => do
    let (text, c) ← Quoted.read r.limit quote c
    return (.scalar false (String.ofList text), c)

def takeBlock (r : Reader) (folded : Bool) : Option Reader := do
  let r ← r.giveUp
  let (text, cursor) ← Block.read r.limit folded r.indents.head? r.cursor
  return { r.push (.scalar false (String.ofList text)) with cursor := cursor, keyAllowed := true }

def takePlain (r : Reader) : Option Reader := do
  let r ← r.remember
  let scan ← Plain.read r.limit r.inFlow r.inside r.cursor
  return { r.push (.scalar true (String.ofList scan.text)) with
    cursor := scan.cursor, keyAllowed := scan.broken }

def take (r : Reader) : Option Reader :=
  let c := r.cursor
  let marks := r.inFlow || atGap (c.rest.drop 1)
  if c.atDocumentStart then r.takeMark .documentStart
  else if c.atDocumentEnd then r.takeMark .documentEnd
  else match c.rest.head?.getD ' ' with
    | '%' => if c.column = 0 then r.takeDirective else none
    | '[' => r.openFlow .flowSequence
    | '\x7b' => r.openFlow .flowMapping
    | ']' => r.closeFlow .flowSequenceEnd
    | '\x7d' => r.closeFlow .flowMappingEnd
    | ',' => r.takeComma
    | '-' => if atGap (c.rest.drop 1) then r.takeItem else r.takePlain
    | '?' => if marks then r.takeKey else r.takePlain
    | ':' => if marks then r.takeValue else r.takePlain
    | '*' => r.takeName .aliasOf
    | '&' => r.takeName .anchor
    | '!' => r.takeTag
    | '|' => if r.inFlow then none else r.takeBlock false
    | '>' => if r.inFlow then none else r.takeBlock true
    | '\'' => r.takeQuoted '\''
    | '"' => r.takeQuoted '"'
    | '@' => none
    | '\x60' => none
    | x => if isGap x then none else r.takePlain

/-- Move to the next token. To tell what it is may take four characters. -/
def approach (r : Reader) : Option Reader := do
  let (cursor, keyAllowed) := r.cursor.toToken r.inFlow r.keyAllowed
  let r ← forgetStale { r with cursor := cursor, keyAllowed := keyAllowed }
  if r.faulty && (cursor.rest.drop 3).isEmpty then none
  return r.closeDeeper

/-- All tokens from here on. Where the text cannot be read any further they end without the end of
the stream. Every token but the last takes a character. -/
def readAll : Nat → Reader → List Token
  | 0, r => r.tokens.reverse
  | steps + 1, r =>
    match r.approach with
    | none => r.tokens.reverse
    | some r =>
      if r.cursor.rest.isEmpty then
        match r.interrupt with
        | none => r.tokens.reverse
        | some r => (Token.streamEnd :: r.tokens).reverse
      else
        match r.take with
        | none => r.tokens.reverse
        | some r => readAll steps r

end Reader

def tokens (source : Source) : List Token :=
  let reader := Reader.start source
  reader.readAll (reader.limit + 1)

end ResourceTypes.Yaml
