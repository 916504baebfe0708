import ResourceTypes.Lowering.Compilation

/-!
# Commands

A command names definitions by paths and patterns and says what to do with the batch that they make.
-/

namespace ResourceTypes

structure InputSettings where
  /-- Paths of definitions, or patterns of such paths. -/
  definitions : List String
  version : Option String
  /-- Whether the fields of nested structures become optional. -/
  optional : Bool

def InputSettings.options (settings : InputSettings) : Options :=
  ⟨settings.version, settings.optional⟩

inductive Command
  /-- Write one module for a version. -/
  | rust (input : InputSettings) (target : String) (noOp : Bool)
  /-- Write the model of the batch, or print it. -/
  | model (input : InputSettings) (out : Option String) (noOp : Bool)

/-- A nested description of a value, laid out one part a line. -/
inductive Description
  | word (text : String)
  | group (opening : String) (parts : List (String × Description)) (closing : String)

namespace Description

def padded (depth : Nat) (text : String) : String :=
  String.ofList (List.replicate (4 * depth) ' ') ++ text

mutual

def lines (depth : Nat) (label ending : String) : Description → List String
  | .word text => [padded depth (label ++ text ++ ending)]
  | .group opening parts closing =>
    padded depth (label ++ opening) :: partLines (depth + 1) parts ++
      [padded depth (closing ++ ending)]

def partLines (depth : Nat) : List (String × Description) → List String
  | [] => []
  | (label, part) :: parts => lines depth label "," part ++ partLines depth parts

end

def string (s : String) : Description :=
  .word (Text.quoted s)

def boolean (b : Bool) : Description :=
  .word (if b then "true" else "false")

def option : Option String → Description
  | none => .word "None"
  | some s => .group "Some(" [("", string s)] ")"

def list (items : List String) : Description :=
  if items.isEmpty then .word "[]" else .group "[" (items.map fun s => ("", string s)) "]"

def record (name : String) (fields : List (String × Description)) : Description :=
  .group (name ++ " \x7b") (fields.map fun (label, part) => (label ++ ": ", part)) "\x7d"

end Description

def InputSettings.description (settings : InputSettings) : Description :=
  .record "InputSettings" [("crd", .list settings.definitions),
    ("version", .option settings.version), ("pointer", .boolean settings.optional)]

def Command.noOp : Command → Bool
  | .rust _ _ noOp => noOp
  | .model _ _ noOp => noOp

def Command.input : Command → InputSettings
  | .rust input _ _ => input
  | .model input _ _ => input

def Command.description (command : Command) : Description :=
  let cmd := match command with
    | .rust input target noOp =>
      Description.group "Rust(" [("", .record "RustOut" [("input_settings", input.description),
        ("target", .string target), ("no_op", .boolean noOp)])] ")"
    | .model input out noOp =>
      Description.group "Model(" [("", .record "ModelOut" [("input_settings", input.description),
        ("out", .option out), ("no_op", .boolean noOp)])] ")"
  .record "CommandLineInterface" [("cmd", cmd)]

end ResourceTypes
