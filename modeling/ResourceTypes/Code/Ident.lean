import ResourceTypes.Naming.Numbered

/-!
# Rust identifiers

Keys become field identifiers in lower case with underscores between their words. Keywords are
escaped, and fields of one structure whose keys lead to one identifier are numbered.
-/

namespace ResourceTypes.Code

/-- Words that are no identifiers unless they are marked as raw. -/
def keywords : List String :=
  ["as", "async", "await", "break", "const", "continue", "dyn", "else", "enum", "extern", "false",
    "fn", "for", "if", "impl", "in", "let", "loop", "match", "mod", "move", "mut", "pub", "ref",
    "return", "static", "struct", "trait", "true", "type", "unsafe", "use", "where", "while",
    "abstract", "become", "box", "do", "final", "gen", "macro", "override", "priv", "try",
    "typeof", "unsized", "virtual", "yield"]

/-- Words that are no identifiers even then. -/
def nonRawKeywords : List String :=
  ["crate", "self", "super", "Self"]

/-- An underscore before a capital that stands between a capital and a small letter. `capital` says
that the character before is a capital. -/
def breakAcronyms (capital : Bool) : List Char → List Char
  | [] => []
  | [c] => [c]
  | c :: d :: rest =>
    let others := breakAcronyms c.isUpper (d :: rest)
    if capital && c.isUpper && d.isLower then '_' :: c :: others else c :: others

/-- An underscore between a small letter or digit and a capital. -/
def breakWords : List Char → List Char
  | [] => []
  | [c] => [c]
  | c :: d :: rest =>
    let others := breakWords (d :: rest)
    if (c.isLower || c.isDigit) && d.isUpper then c :: '_' :: others else c :: others

/-- One underscore for each run of characters that are not letters or digits of ASCII. `inside`
says that such a run has begun. -/
def joinOthers (inside : Bool) : List Char → List Char
  | [] => []
  | c :: rest =>
    if c.isAlphanum then c :: joinOthers false rest
    else if inside then joinOthers true rest
    else '_' :: joinOthers true rest

def trimUnderscores (cs : List Char) : List Char :=
  ((cs.dropWhile (· = '_')).reverse.dropWhile (· = '_')).reverse

def snakeChars (cs : List Char) : List Char :=
  (trimUnderscores (joinOthers false (breakWords (breakAcronyms false cs)))).map Char.toLower

def snakeCase (s : String) : String :=
  String.ofList (snakeChars s.toList)

def rawMark : String := "r#"

def fieldIdent (key : String) : String :=
  let snake := snakeCase key
  if snake = "" then "field"
  else if snake.toList.head?.any Char.isDigit then "_" ++ snake
  else if snake ∈ nonRawKeywords then snake ++ "_"
  else if snake ∈ keywords then rawMark ++ snake
  else snake

def stripRawChars : List Char → List Char
  | 'r' :: '#' :: rest => stripRawChars rest
  | cs => cs

def stripRaw (ident : String) : String :=
  String.ofList (stripRawChars ident.toList)

/-- Identifiers to try for a key: its own, then the same with a number from two on. -/
def attempt (key : String) : Nat → String
  | 0 => fieldIdent key
  | n + 1 => stripRaw (fieldIdent key) ++ "_" ++ String.ofList (Decimal.natChars (n + 2))

/-- The first identifier for a key that is not taken. -/
def claim (taken : List String) (key : String) : String :=
  Naming.firstFree taken (attempt key)

/-- Identifiers for keys in order, none of them taken. -/
def claimAll (taken : List String) : List String → List String
  | [] => []
  | key :: rest =>
    let ident := claim taken key
    ident :: claimAll (ident :: taken) rest

/-- The variant of a constant: its name without the name of the enumeration, where that leaves an
identifier. -/
def variantName (enumName constant : String) : String :=
  match enumName.toList.isPrefixOf? constant.toList with
  | some rest =>
    let stripped := String.ofList rest
    if rest.head?.any Char.isAlpha && stripped ∉ nonRawKeywords then stripped else constant
  | none => constant

end ResourceTypes.Code
