import ResourceTypes.Keyed
import ResourceTypes.Yaml.Token

/-!
# Nodes of documents

A document is a tree of scalars, sequences and mappings, some of which are anchored, and of aliases
of anchored nodes. An anchor is known by a number, which is the number of names given before it in
its document; a name that is given again is renumbered.
-/

namespace ResourceTypes.Yaml

inductive Node
  | scalar (tag : Option Tag) (plain : Bool) (text : String)
  | seq (tag : Option Tag) (items : List Node)
  | map (tag : Option Tag) (entries : List (Node × Node))
  | anchored (anchor : Nat) (node : Node)
  | aliasOf (anchor : Nat)

instance : Inhabited Node := ⟨.aliasOf 0⟩

/-- What stands where a node is left out. -/
def Node.absent : Node :=
  .scalar none true ""

/-- The tokens still to be read, and what the document at hand has declared. -/
structure Supply where
  tokens : List Token
  handles : Tag.Handles
  anchors : List (String × Nat)

abbrev Parse (α : Type) := StateT Supply Option α

namespace Parse

def next : Parse (Option Token) := do
  return (← get).tokens.head?

def advance : Parse Unit :=
  modify fun supply => { supply with tokens := supply.tokens.tail }

def accept (token : Token) : Parse Bool := do
  if (← next) = some token then
    advance
    return true
  else return false

def expect (token : Token) : Parse Unit := do
  if !(← accept token) then failure

def nextIsOneOf (tokens : List Token) : Parse Bool := do
  return (← next).any tokens.contains

def anchor (name : String) : Parse Nat := do
  let supply ← get
  let number := supply.anchors.length
  set { supply with anchors := Keyed.set name number supply.anchors }
  return number

def anchorOf (name : String) : Parse Nat := do
  (← get).anchors.lookup name

def acceptAnchor : Parse (Option Nat) := do
  match ← next with
  | some (.anchor name) =>
    advance
    return some (← anchor name)
  | _ => return none

def acceptTag : Parse (Option Tag) := do
  match ← next with
  | some (.tag tag) =>
    advance
    return some (← tag.resolve (← get).handles)
  | _ => return none

def properties : Parse (Option Nat × Option Tag) := do
  match ← acceptAnchor with
  | some anchor => return (some anchor, ← acceptTag)
  | none =>
    let tag ← acceptTag
    if tag.isSome then return (← acceptAnchor, tag) else return (none, none)

mutual

/-- One node. Block collections may stand only inside block collections, and a sequence without an
indentation of its own only as a part of a mapping. -/
def node (block indentless : Bool) : Nat → Parse Node
  | 0 => failure
  | steps + 1 => do
    match ← next with
    | some (.aliasOf name) =>
      advance
      return .aliasOf (← anchorOf name)
    | _ =>
      let (anchor, tag) ← properties
      let node ← content block indentless (anchor.isSome || tag.isSome) tag steps
      return match anchor with
        | some number => .anchored number node
        | none => node

/-- The node behind its properties. With properties it may be left out. -/
def content (block indentless optional : Bool) (tag : Option Tag) : Nat → Parse Node
  | 0 => failure
  | steps + 1 => do
    match ← next with
    | some (.scalar plain text) =>
      advance
      return .scalar tag plain text
    | some .flowSequence =>
      advance
      return .seq tag (← flowItems true steps)
    | some .flowMapping =>
      advance
      return .map tag (← flowEntries true steps)
    | token =>
      if indentless && token = some .item then
        return .seq tag (← indentlessItems steps)
      else if block && token = some .blockSequence then
        advance
        return .seq tag (← blockItems steps)
      else if block && token = some .blockMapping then
        advance
        return .map tag (← blockEntries steps)
      else if optional then return .scalar tag true ""
      else failure

/-- A node that is left out in front of some tokens. -/
def nodeUnless (stops : List Token) (block indentless : Bool) : Nat → Parse Node
  | 0 => failure
  | steps + 1 => do
    if ← nextIsOneOf stops then return .absent else node block indentless steps

def blockItems : Nat → Parse (List Node)
  | 0 => failure
  | steps + 1 => do
    if ← accept .item then
      let item ← nodeUnless [.item, .blockEnd] true false steps
      return item :: (← blockItems steps)
    else
      expect .blockEnd
      return []

/-- The items of a sequence that ends with the first token that is no dash. -/
def indentlessItems : Nat → Parse (List Node)
  | 0 => failure
  | steps + 1 => do
    if ← accept .item then
      let item ← nodeUnless [.item, .key, .value, .blockEnd] true false steps
      return item :: (← indentlessItems steps)
    else return []

def blockEntries : Nat → Parse (List (Node × Node))
  | 0 => failure
  | steps + 1 => do
    if ← accept .key then
      let stops := [.key, .value, .blockEnd]
      let key ← nodeUnless stops true true steps
      let value ← if ← accept .value then nodeUnless stops true true steps else pure .absent
      return (key, value) :: (← blockEntries steps)
    else
      expect .blockEnd
      return []

def flowItems (first : Bool) : Nat → Parse (List Node)
  | 0 => failure
  | steps + 1 => do
    if ← accept .flowSequenceEnd then return []
    if !first then expect .comma
    if ← accept .key then
      let entry ← flowPair steps
      return .map none [entry] :: (← flowItems false steps)
    else if !first && (← accept .flowSequenceEnd) then return []
    else
      let item ← node false false steps
      return item :: (← flowItems false steps)

/-- A key and its value as an item. A key that is left out takes the token behind it along. -/
def flowPair : Nat → Parse (Node × Node)
  | 0 => failure
  | steps + 1 => do
    let key ← if ← nextIsOneOf [.value, .comma, .flowSequenceEnd] then
        advance
        pure .absent
      else node false false steps
    let value ← if ← accept .value then
        nodeUnless [.comma, .flowSequenceEnd] false false steps
      else pure .absent
    return (key, value)

/-- Entries with commas between them and possibly behind the last one. A node alone is a key. -/
def flowEntries (first : Bool) : Nat → Parse (List (Node × Node))
  | 0 => failure
  | steps + 1 => do
    if ← accept .flowMappingEnd then return []
    if !first then expect .comma
    if ← accept .key then
      let key ← nodeUnless [.value, .comma, .flowMappingEnd] false false steps
      let value ← if ← accept .value then
          nodeUnless [.comma, .flowMappingEnd] false false steps
        else pure .absent
      return (key, value) :: (← flowEntries false steps)
    else if !first && (← accept .flowMappingEnd) then return []
    else
      let key ← node false false steps
      return (key, .absent) :: (← flowEntries false steps)

end

/-- A node at any place in the tokens that are left. A token is read at least every four calls. -/
def rootNode : Parse Node := do
  node true false (4 * (← get).tokens.length + 4)

/-- Directives in front of a document. Each of them stands there once. -/
def directives (version : Bool) (handles : Tag.Handles) :
    List Token → Option (Tag.Handles × List Token)
  | .version major minor :: rest =>
    if !version && major = 1 && (minor = 1 || minor = 2) then directives true handles rest else none
  | .handle name start :: rest =>
    if (handles.lookup name).isNone then directives version (handles ++ [(name, start)]) rest
    else none
  | rest => some (handles, rest)

def isDirective : Token → Bool
  | .version .. | .handle .. => true
  | _ => false

/-- The node of a document behind its start, if it has one. -/
def explicitRoot : Parse Node := do
  expect .documentStart
  let stop ← nextIsOneOf [.documentStart, .documentEnd, .streamEnd]
  if stop || (← next).any isDirective then return .absent else rootNode

/-- The end of a document is marked or left out. -/
def finish : Parse Unit := do
  if (← next).isNone then failure
  let _ ← accept .documentEnd

/-- The next document, or none at the end of the stream. Only the first one may begin without a
mark. -/
def document (first : Bool) (tokens : List Token) : Option (Option Node × List Token) := do
  let tokens := if first then tokens else tokens.dropWhile (· = .documentEnd)
  match tokens.head? with
  | some .streamEnd => return (none, [])
  | token =>
    let (handles, tokens) ← directives false [] tokens
    let marked := !first || token.any isDirective || token = some .documentStart
    let supply := ⟨tokens, handles ++ Tag.Handles.standard, []⟩
    let (node, supply) ← (if marked then explicitRoot <* finish else rootNode <* finish) supply
    return (some node, supply.tokens)

end Parse

/-- The documents of a stream up to the first one that is not well formed, which is none. A
document takes a token at least. -/
def documentNodes (first : Bool) : Nat → List Token → List (Option Node)
  | 0, _ => []
  | steps + 1, tokens =>
    match Parse.document first tokens with
    | none => [none]
    | some (none, _) => []
    | some (some node, rest) => some node :: documentNodes false steps rest

end ResourceTypes.Yaml
