import ResourceTypes.Definition.Basic
import ResourceTypes.Schema.Reading

/-!
# Definitions in documents

A source is a sequence of documents, some of which are definitions. Documents of other kinds are
skipped whatever they hold. The first document that fails, at its text or at its content, makes the
whole source fail.
-/

namespace ResourceTypes.Definition

structure NamesDraft where
  kind : Option String
  plural : Option String
  listKind : Option String

structure Names where
  kind : String
  plural : String
  listKind : Option String

def readNames (r : Reading) (v : Value) : ReadResult Names := do
  let set (draft : NamesDraft) (name : String) (v : Value) : ReadResult NamesDraft :=
    match name with
    | "kind" => do return { draft with kind := some (← r.string v) }
    | "plural" => do return { draft with plural := some (← r.string v) }
    | _ => do return { draft with listKind := ← Reading.optional r.string v }
  let draft ← r.record "CrdNames" ["kind", "plural", "listKind"] set ⟨none, none, none⟩ v
  return ⟨← required "kind" draft.kind, ← required "plural" draft.plural, draft.listKind⟩

/-- The schema of a version stands one level deeper than the version says. -/
def readValidation (r : Reading) (v : Value) : ReadResult (Option SchemaFields) :=
  let set (_ : Option SchemaFields) (_ : String) (v : Value) :
      ReadResult (Option SchemaFields) := Reading.optional r.schema v
  r.record "CrdValidation" ["openAPIV3Schema"] set none v

structure VersionDraft where
  name : Option String
  served : Bool
  storage : Bool
  validation : Option (Option SchemaFields)

def readVersion (r : Reading) (v : Value) : ReadResult Version := do
  let set (draft : VersionDraft) (name : String) (v : Value) : ReadResult VersionDraft :=
    match name with
    | "name" => do return { draft with name := some (← r.string v) }
    | "served" => do return { draft with served := ← r.boolean v }
    | "storage" => do return { draft with storage := ← r.boolean v }
    | _ => do return { draft with validation := ← Reading.optional (readValidation r) v }
  let fields := ["name", "served", "storage", "schema"]
  let draft ← r.record "CrdVersion" fields set ⟨none, false, false, none⟩ v
  let schema := draft.validation.join.map SchemaFields.toSchema
  return ⟨← required "name" draft.name, draft.served, draft.storage, schema⟩

structure SpecDraft where
  group : Option String
  names : Option Names
  versions : List Version

/-- The list kind defaults to the kind with `List` behind it. -/
def readSpec (r : Reading) (v : Value) : ReadResult Definition := do
  let set (draft : SpecDraft) (name : String) (v : Value) : ReadResult SpecDraft :=
    match name with
    | "group" => do return { draft with group := some (← r.string v) }
    | "names" => do return { draft with names := some (← readNames r v) }
    | _ => do return { draft with versions := ← r.sequence (readVersion r) v }
  let draft ← r.record "CrdSpec" ["group", "names", "versions"] set ⟨none, none, []⟩ v
  let group ← required "group" draft.group
  let names ← required "names" draft.names
  let listKind := (SchemaFields.nonempty names.listKind).getD (names.kind ++ "List")
  return ⟨names.kind, names.plural, listKind, group, declared draft.versions⟩

def read (r : Reading) (v : Value) : ReadResult Definition := do
  let set (_ : Option Definition) (_ : String) (v : Value) : ReadResult (Option Definition) := do
    return some (← readSpec r v)
  let spec ← r.record "CrdDocument" ["spec"] set none v
  required "spec" spec

/-- Whether a document says that it is a definition. Its tags are of no account. -/
def isDefinition (v : Value) : Bool :=
  match (v.untag.get? "kind").map Value.untag with
  | some (.str kind) => kind = "CustomResourceDefinition"
  | _ => false

/-- The definitions among the documents from an index on. A document without a value is one whose
text is not well formed. -/
def ofDocumentsFrom (source : String) (index : Nat) :
    List (Option Value) → Except DefinitionError (List Definition)
  | [] => .ok []
  | none :: _ => .error (.malformedText source index)
  | some v :: rest =>
    if isDefinition v then
      match read .document v with
      | .error error => .error (.malformedContent source index error)
      | .ok definition => do return definition :: (← ofDocumentsFrom source (index + 1) rest)
    else ofDocumentsFrom source (index + 1) rest

def ofDocuments (source : String) (documents : List (Option Value)) :
    Except DefinitionError (List Definition) := do
  match ← ofDocumentsFrom source 0 documents with
  | [] => .error (.noDefinition source)
  | definitions => .ok definitions

end ResourceTypes.Definition
