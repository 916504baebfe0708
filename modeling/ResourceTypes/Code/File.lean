import ResourceTypes.Naming.Words
import ResourceTypes.Path
import ResourceTypes.Code.Item

/-!
# Rust files

A batch becomes one file for each resource, one file about the group and version, and one that ties
them together. All of them lie below the name of the version.
-/

namespace ResourceTypes.Code

structure OutputFile where
  path : String
  contents : String

/-- The text of lines, each of which ends. -/
def textOf (lines : Lines) : String :=
  String.join (lines.map (· ++ "\n"))

def header : Lines :=
  ["// Code generated by crd-typegen. DO NOT EDIT.", blank]

/-- Whether the types of a model refer to a type that the model does not define. -/
def needsSiblings (m : TypeModel) : Bool :=
  (m.types.flatMap TypeRef.names).any (· ∉ m.definedNames)

/-- What a file imports: maps, external types by path, serialization, and its sibling files. -/
def importLines (m : TypeModel) : Lines :=
  let paths := (m.imports.map External.path).mergeSort fun a b => decide (a ≤ b)
  (if m.types.any TypeRef.hasMapping then ["use std::collections::BTreeMap;", blank] else []) ++
    paths.map (fun path => "use " ++ path ++ ";") ++
    ["use serde::\x7bDeserialize, Serialize\x7d;"] ++
    (if needsSiblings m then [blank, "use super::*;"] else []) ++ [blank]

def resourceLines (m : TypeModel) : Lines :=
  header ++ importLines m ++ rootLines m ++ listLines m.descriptor ++
    m.structs.flatMap structLines ++ m.enums.flatMap enumLines

def infoModule : String := "group_version_info"

def infoLines (b : Batch) : Lines :=
  let apiVersion := match b.resources with
    | m :: _ => m.descriptor.apiVersion
    | [] => b.version
  let constant (name value : String) :=
    "pub const " ++ name ++ ": &str = " ++ Text.quoted value ++ ";"
  header ++ ["/// API group of every resource in this module.", constant "GROUP" b.group,
    constant "VERSION" b.version, constant "API_VERSION" apiVersion, blank,
    "/// `(kind, plural)` of every resource in this module.",
    "pub const KINDS: &[(&str, &str)] = &["] ++
    b.resources.map (fun m =>
      line 1 ("(" ++ Text.quoted m.descriptor.kind ++ ", " ++ Text.quoted m.descriptor.plural ++
        "),")) ++ ["];"]

def moduleOf (m : TypeModel) : String :=
  Naming.moduleName m.descriptor.kind

def modules (b : Batch) : List String :=
  (b.resources.map moduleOf ++ [infoModule]).mergeSort fun a b => decide (a ≤ b)

def modLines (b : Batch) : Lines :=
  header ++ (modules b).map (fun m => "pub mod " ++ m ++ ";") ++ [blank] ++
    (modules b).map fun m => "pub use " ++ m ++ "::*;"

/-- All files of a batch: resources in their order, then the two files about all of them. -/
def files (b : Batch) : List OutputFile :=
  let file (name : String) (lines : Lines) : OutputFile :=
    ⟨Path.join b.version (name ++ ".rs"), textOf lines⟩
  b.resources.map (fun m => file (moduleOf m) (resourceLines m)) ++
    [file infoModule (infoLines b), file "mod" (modLines b)]

end ResourceTypes.Code
