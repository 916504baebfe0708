import ResourceTypes.Glob.Search
import ResourceTypes.Lowering.Compilation

/-!
# Failures of commands

A failure says what was being done and lists the causes, the nearest one first.
-/

namespace ResourceTypes

inductive Failure
  | badPattern (pattern : String) (error : Glob.PatternError)
  | badEntry (error : Glob.EntryError)
  | noMatch (pattern : String)
  | unreadable (path : String) (error : FileError)
  | badDefinition (path : String) (error : DefinitionError)
  | incompatible (error : CompileError)
  | notCreated (directory : String) (error : FileError)
  | notWritten (path : String) (error : FileError)

namespace Failure

def context : Failure → String
  | .badPattern .. => "failed to resolve CRD paths"
  | .badEntry _ => "failed to resolve CRD paths"
  | .noMatch _ => "failed to resolve CRD paths"
  | .unreadable path _ => "failed to load " ++ path
  | .badDefinition path _ => "failed to load " ++ path
  | .incompatible _ => "failed to compile CRDs"
  | .notCreated directory _ => "failed to create " ++ directory
  | .notWritten path _ => "failed to write " ++ path

def patternMessage (error : Glob.PatternError) : String :=
  "Pattern syntax error near position " ++ String.ofList (Decimal.natChars error.place) ++ ": " ++
    error.reason

def causes : Failure → List String
  | .badPattern pattern error =>
    ["invalid glob pattern \x60" ++ pattern ++ "\x60: " ++ patternMessage error,
      patternMessage error]
  | .badEntry error => ["failed to expand glob entry: " ++ error.message, error.message]
  | .noMatch pattern => ["glob pattern matched no files: " ++ pattern]
  | .unreadable path error =>
    ["failed to read " ++ path ++ ": " ++ error.message, error.message]
  | .badDefinition _ error => [error.message]
  | .incompatible error => [error.message]
  | .notCreated _ error => [error.message]
  | .notWritten _ error => [error.message]

/-- A text with a label in front of its first line and blanks in front of the others. -/
def labelled (label text : String) : String :=
  let margin := '\n' :: List.replicate label.length ' '
  label ++ String.ofList (text.toList.flatMap fun c => if c = '\n' then margin else [c])

def causeTexts (causes : List String) : List String :=
  match causes with
  | [cause] => [labelled "    " cause]
  | causes => causes.mapIdx fun i cause =>
    labelled ("    " ++ String.ofList (Decimal.natChars i) ++ ": ") cause

def text (failure : Failure) : String :=
  "Error: " ++ failure.context ++ "\n\nCaused by:\n" ++
    String.join ((causeTexts failure.causes).map (· ++ "\n"))

end Failure

end ResourceTypes
