import ResourceTypes.Yaml.Node
import ResourceTypes.Yaml.Scalar
import ResourceTypes.Yaml.Tokens

/-!
# Values of documents

The value of a node has the values of the anchored nodes in the places of their aliases. A document
has a value only if its collections are nested no deeper than a limit, if its aliases do not
multiply beyond a limit, and if no mapping has two equal keys.
-/

namespace ResourceTypes.Yaml

namespace Node

mutual

/-- The number of scalars, aliases, and beginnings and ends of collections. -/
def size : Node → Nat
  | .scalar .. => 1
  | .aliasOf _ => 1
  | .seq _ items => sizeItems items + 2
  | .map _ entries => sizeEntries entries + 2
  | .anchored _ node => size node

def sizeItems : List Node → Nat
  | [] => 0
  | item :: items => size item + sizeItems items

def sizeEntries : List (Node × Node) → Nat
  | [] => 0
  | (k, v) :: entries => size k + size v + sizeEntries entries

end

mutual

/-- The anchored nodes in the order in which they begin. -/
def anchors : Node → List (Nat × Node)
  | .scalar .. => []
  | .aliasOf _ => []
  | .seq _ items => anchorsItems items
  | .map _ entries => anchorsEntries entries
  | .anchored number node => (number, node) :: anchors node

def anchorsItems : List Node → List (Nat × Node)
  | [] => []
  | item :: items => anchors item ++ anchorsItems items

def anchorsEntries : List (Node × Node) → List (Nat × Node)
  | [] => []
  | (k, v) :: entries => anchors k ++ anchors v ++ anchorsEntries entries

end

/-- Expansion of aliases. The state is the number of aliases that may still be expanded. -/
abbrev Expand (α : Type) := StateT Nat Option α

def countAlias : Expand Unit := do
  match ← get with
  | 0 => failure
  | left + 1 => set left

/-- The node that an alias stands for, and any other node without its anchor. Of two nodes with one
number the later one counts. -/
def target (anchors : List (Nat × Node)) : Node → Expand Node
  | .aliasOf number => do
    countAlias
    (anchors.reverse.lookup number : Option Node)
  | .anchored _ node => return node
  | node => return node

/-- A tag of the document's own stays with a collection, and others are of no account. -/
def tagValue (tag : Option Tag) (v : Value) : Value :=
  match tag with
  | some (.named name) => .tagged name v
  | _ => v

def hasEqualKeys : List (Value × Value) → Bool
  | [] => false
  | (key, _) :: entries => entries.any (fun entry => entry.1.same key) || hasEqualKeys entries

/-- The value of a node that is no alias, by the values of the nodes in it. A node at the limit of
the depth may hold none. -/
def build (inner : Option (Node → Expand Value)) : Node → Expand Value
  | .scalar tag plain text => (Scalar.value tag plain text : Option Value)
  | .seq tag items => do
    let inner ← (inner : Option _)
    return tagValue tag (.seq (← items.mapM inner))
  | .map tag entries => do
    let inner ← (inner : Option _)
    let entries ← entries.mapM fun (k, v) => do return (← inner k, ← inner v)
    if hasEqualKeys entries then failure
    return tagValue tag (.map entries)
  | _ => failure

/-- The value of a node in which collections are nested up to a depth. -/
def expand (anchors : List (Nat × Node)) : Nat → Node → Expand Value
  | 0, node => do build none (← target anchors node)
  | depth + 1, node => do build (some (expand anchors depth)) (← target anchors node)

def depthLimit : Nat :=
  128

/-- The value of the node of a document. Up to a hundred aliases may be expanded for each part of
the document. -/
def value (node : Node) : Option Value := do
  let (value, _) ← expand node.anchors depthLimit node (100 * node.size)
  return value

end Node

/-- The values of the documents of a source, up to the first one that has none. A stream without
documents counts as one that is null. -/
def documents (bytes : List UInt8) : List (Option Value) :=
  let tokens := tokens (Source.ofBytes bytes)
  match tokens with
  | [.streamEnd] => [some .null]
  | tokens => (documentNodes true (tokens.length + 1) tokens).map (·.bind Node.value)

end ResourceTypes.Yaml
