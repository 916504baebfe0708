import ResourceTypes.Lowering.Basic
import ResourceTypes.Model.Optional

/-!
# Compilation of batches

A batch is compiled in the order of its definitions, with one registry for all of them. Its kinds
and list kinds have to differ, its kinds have to lead to different modules, and all definitions have
to share the group and the version. The first fault ends the compilation.
-/

namespace ResourceTypes

open Naming (Registry)

structure Options where
  /-- The version to compile of every definition, its stored version otherwise. -/
  version : Option String
  /-- Whether the fields of nested structures become optional. -/
  optional : Bool

inductive Shared
  | group
  | version
  deriving DecidableEq

inductive CompileError
  | definition (error : DefinitionError)
  | duplicateKind (kind : String)
  | moduleClash (firstKind secondKind module : String)
  | mismatch (shared : Shared) (firstKind firstValue secondKind secondValue : String)

def Shared.label : Shared → String
  | .group => "group"
  | .version => "version"

def CompileError.message : CompileError → String
  | .definition error => error.message
  | .duplicateKind kind => "type name " ++ kind ++ " is declared by more than one CRD"
  | .moduleClash firstKind secondKind module =>
    "kinds " ++ firstKind ++ " and " ++ secondKind ++ " map to the same module " ++ module
  | .mismatch shared firstKind firstValue secondKind secondValue =>
    "not all CRDs have the same " ++ shared.label ++ ": " ++ firstKind ++ " has " ++
      Text.quoted firstValue ++ ", " ++ secondKind ++ " has " ++ Text.quoted secondValue

namespace Compilation

/-- The first name that occurs before. -/
def firstRepeat? (seen : List String) : List String → Option String
  | [] => none
  | name :: rest => if name ∈ seen then some name else firstRepeat? (name :: seen) rest

/-- The names of roots and lists: all kinds, then all list kinds. -/
def typeNames (definitions : List Definition) : List String :=
  definitions.map (·.kind) ++ definitions.map (·.listKind)

/-- The first kind whose module an earlier kind has. -/
def moduleClash? (seen : List (String × String)) : List Definition → Option CompileError
  | [] => none
  | d :: rest =>
    let module := Naming.moduleName d.kind
    match seen.lookup module with
    | some firstKind => some (.moduleClash firstKind d.kind module)
    | none => moduleClash? ((module, d.kind) :: seen) rest

def nameConflict? (definitions : List Definition) : Option CompileError :=
  match firstRepeat? [] (typeNames definitions) with
  | some kind => some (.duplicateKind kind)
  | none => moduleClash? [] definitions

/-- A disagreement with the first resource of the batch. -/
def disagreement? (first : Option Descriptor) (d : Definition) (version : Version) :
    Option CompileError :=
  match first with
  | none => none
  | some f =>
    if f.group ≠ d.group then some (.mismatch .group f.kind f.group d.kind d.group)
    else if f.version ≠ version.name then
      some (.mismatch .version f.kind f.version d.kind version.name)
    else none

/-- A later definition that is stored in another version than the pinned one disagrees with the
first resource of the batch. -/
def selectionError (first : Option Descriptor) (d : Definition) (error : DefinitionError) :
    CompileError :=
  match error, first, d.storageVersion? with
  | .noMatchingVersion _ _, some f, some version =>
    .mismatch .version f.kind f.version d.kind version.name
  | error, _, _ => .definition error

structure Run where
  models : Except CompileError (List TypeModel)
  registry : Registry
  warnings : List Warning

/-- Compile definitions after the first resource of the batch, if there is one. -/
def compileFrom (options : Options) (first : Option Descriptor) (registry : Registry) :
    List Definition → Run
  | [] => ⟨.ok [], registry, []⟩
  | d :: rest =>
    match d.select options.version with
    | .error error => ⟨.error (selectionError first d error), registry, []⟩
    | .ok (version, schema) =>
      let reported := d.selectionWarnings version
      match disagreement? first d version with
      | some error => ⟨.error error, registry, reported⟩
      | none =>
        let descriptor := d.descriptor version.name
        let lowered := Lowering.lower registry schema descriptor
        let model := if options.optional then lowered.1.relax else lowered.1
        let run := compileFrom options (some (first.getD descriptor)) lowered.2 rest
        ⟨run.models.map (model :: ·), run.registry,
          reported ++ Lowering.warnings schema descriptor ++ run.warnings⟩

/-- The registry in which all root and list names and all imported names are taken. -/
def startRegistry (definitions : List Definition) : Registry :=
  (Registry.empty.reserveAll (typeNames definitions)).reserveAll importedNames

/-- The batch of some models, which share the group and version of the first one. -/
def batchOf (models : List TypeModel) : Batch :=
  match models with
  | [] => ⟨"", "", []⟩
  | m :: _ => ⟨m.descriptor.group, m.descriptor.version, models⟩

def run (options : Options) (definitions : List Definition) : Run :=
  match nameConflict? definitions with
  | some error => ⟨.error error, .empty, []⟩
  | none => compileFrom options none (startRegistry definitions) definitions

end Compilation

structure Compiled where
  batch : Except CompileError Batch
  warnings : List Warning

def compileBatch (options : Options) (definitions : List Definition) : Compiled :=
  let run := Compilation.run options definitions
  match run.models with
  | .error error => ⟨.error error, run.warnings⟩
  | .ok models =>
    let batch := Compilation.batchOf models
    ⟨.ok batch, run.warnings ++ batch.danglingRefs.map .danglingRef⟩

structure CompiledResource where
  model : Except DefinitionError TypeModel
  registry : Registry
  warnings : List Warning

def compileResource (registry : Registry) (d : Definition) (desired : Option String) :
    CompiledResource :=
  match d.select desired with
  | .error error => ⟨.error error, registry, []⟩
  | .ok (version, schema) =>
    let descriptor := d.descriptor version.name
    let lowered := Lowering.lower registry schema descriptor
    ⟨.ok lowered.1, lowered.2,
      d.selectionWarnings version ++ Lowering.warnings schema descriptor⟩

end ResourceTypes
