import ResourceTypes.CommandLine.Command

/-!
# Arguments

The first argument names the command, and options follow. An option has a long name, some have a
short one, and the value of an option stands behind an equals sign or in the next argument. Only
definitions may be given repeatedly, or several at once.
-/

namespace ResourceTypes.Arguments

inductive Request
  | run (command : Command)
  | help
  /-- The arguments make no sense. -/
  | refused

inductive CommandName
  | rust
  | model
  deriving DecidableEq

inductive OptionName
  | definitions
  | version
  | optional
  /-- Where the output goes. -/
  | place
  | noOp
  | help
  deriving DecidableEq

def longName (command : CommandName) (name : String) : Option OptionName :=
  match name with
  | "crd" => some .definitions
  | "version" => some .version
  | "pointer" => some .optional
  | "target" => if command = .rust then some .place else none
  | "out" => if command = .model then some .place else none
  | "no-op" => some .noOp
  | "help" => some .help
  | _ => none

def shortName (command : CommandName) (c : Char) : Option OptionName :=
  if c = 'h' then some .help
  else if c = 't' && command = .rust then some .place
  else if c = 'o' && command = .model then some .place
  else none

/-- An option and the value in the same argument, if there is one. -/
structure Written where
  option : OptionName
  value : Option String

def isValue (argument : String) : Bool :=
  match argument.toList with
  | '-' :: _ :: _ => false
  | _ => true

def splitEquals (cs : List Char) : List Char × Option String :=
  let name := cs.takeWhile (· ≠ '=')
  match cs.drop name.length with
  | [] => (name, none)
  | _ :: value => (name, some (String.ofList value))

/-- Read an argument that begins with a dash. Behind a short name the value follows at once or
behind an equals sign; what stands behind the short name of help is of no account. -/
def readOption (command : CommandName) (argument : String) : Option Written :=
  match argument.toList with
  | '-' :: '-' :: cs => do
    let (name, value) := splitEquals cs
    return ⟨← longName command (String.ofList name), value⟩
  | '-' :: c :: cs => do
    let option ← shortName command c
    match option, cs with
    | .help, _ => return ⟨option, none⟩
    | _, [] => return ⟨option, none⟩
    | _, '=' :: value => return ⟨option, some (String.ofList value)⟩
    | _, value => return ⟨option, some (String.ofList value)⟩
  | _ => none

/-- What the options given so far say. -/
structure Draft where
  definitions : List String
  version : Option String
  optional : Bool
  place : Option String
  noOp : Bool

def Draft.empty : Draft :=
  ⟨[], none, false, none, false⟩

def Draft.setVersion (draft : Draft) (version : String) : Option Draft :=
  if draft.version.isSome then none else some { draft with version := some version }

def Draft.setPlace (draft : Draft) (place : String) : Option Draft :=
  if draft.place.isSome || place = "" then none else some { draft with place := some place }

def Draft.setOptional (draft : Draft) : Option Draft :=
  if draft.optional then none else some { draft with optional := true }

def Draft.setNoOp (draft : Draft) : Option Draft :=
  if draft.noOp then none else some { draft with noOp := true }

/-- The command of a finished draft. Definitions have to be given, and a place to write modules
to. -/
def Draft.finish (draft : Draft) (command : CommandName) : Request :=
  if draft.definitions.isEmpty then .refused
  else
    let input : InputSettings := ⟨draft.definitions, draft.version, draft.optional⟩
    match command, draft.place with
    | .model, out => .run (.model input out draft.noOp)
    | .rust, some target => .run (.rust input target draft.noOp)
    | .rust, none => .refused

/-- Take one option. Its value is in the same argument or in those behind it. -/
def takeOption (draft : Draft) (written : Written) (behind : List String) :
    Option (Draft × List String) :=
  let single (set : String → Option Draft) : Option (Draft × List String) :=
    match written.value, behind with
    | some value, _ => (set value).map (·, behind)
    | none, value :: behind => if isValue value then (set value).map (·, behind) else none
    | none, [] => none
  let flag (set : Option Draft) : Option (Draft × List String) :=
    if written.value.isSome then none else set.map (·, behind)
  match written.option with
  | .definitions =>
    let values := match written.value with
      | some value => [value]
      | none => behind.takeWhile isValue
    let behind := if written.value.isSome then behind else behind.dropWhile isValue
    if values.isEmpty then none
    else some ({ draft with definitions := draft.definitions ++ values }, behind)
  | .version => single draft.setVersion
  | .place => single draft.setPlace
  | .optional => flag draft.setOptional
  | .noOp => flag draft.setNoOp
  | .help => none

/-- Read options one after the other. Two dashes alone end them, and nothing may follow. Help ends
the reading at once. Every option takes an argument at least. -/
def readOptions (command : CommandName) : Nat → Draft → List String → Request
  | 0, _, _ => .refused
  | _ + 1, draft, [] => draft.finish command
  | steps + 1, draft, argument :: behind =>
    if argument = "--" then
      if behind.isEmpty then draft.finish command else .refused
    else match readOption command argument with
      | none => .refused
      | some ⟨.help, value⟩ => if value.isSome then .refused else .help
      | some written =>
        match takeOption draft written behind with
        | none => .refused
        | some (draft, behind) => readOptions command steps draft behind

def commandName? : String → Option CommandName
  | "rust" => some .rust
  | "model" => some .model
  | _ => none

def read : List String → Request
  | [] => .refused
  | first :: behind =>
    match commandName? first with
    | some command => readOptions command (behind.length + 1) .empty behind
    | none =>
      if first = "--help" then .help
      else if first = "help" then
        match behind with
        | [] => .help
        | [name] => if name = "help" || (commandName? name).isSome then .help else .refused
        | _ => .refused
      else match first.toList with
        | '-' :: 'h' :: _ => .help
        | _ => .refused

end ResourceTypes.Arguments
