import ResourceTypes.Json.Text
import ResourceTypes.Text.Case
import ResourceTypes.Text.Letters

/-!
# Names made of words

Keys become type and field names by joining their words, each with a capital first letter. A word is
a run of letters and digits.
-/

namespace ResourceTypes.Naming

/-- Join words. `start` says that the next letter or digit begins a word. -/
def camelFrom (start : Bool) : List Char → List Char
  | [] => []
  | c :: rest =>
    if Text.isAlphanumeric c then
      (if start then Text.upper c else [c]) ++ camelFrom false rest
    else camelFrom true rest

/-- Joined words with capital first letters. Other letters keep their case. -/
def camelCase (s : String) : String :=
  String.ofList (camelFrom true s.toList)

/-- The text that a literal stands for: a string itself, anything else its JSON text without
quotes. -/
def literalText : Json → String
  | .str s => s
  | v => String.ofList ((Json.chars v).filter (· ≠ '"'))

def constantSuffix (literal : Json) : String :=
  match literalText literal with
  | "*" => "All"
  | "" => "EmptyValue"
  | text => camelCase text

/-- The module that holds the types of a kind. -/
def moduleName (kind : String) : String :=
  "types_" ++ Text.lowercase kind

/-- The type name that a reference names: the words after its last slash. -/
def refName (pointer : String) : String :=
  String.ofList (camelFrom true (pointer.toList.reverse.takeWhile (· ≠ '/')).reverse)

end ResourceTypes.Naming
