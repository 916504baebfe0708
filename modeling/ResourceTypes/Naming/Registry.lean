import ResourceTypes.Naming.Candidates
import ResourceTypes.Naming.Numbered
import ResourceTypes.Naming.Signature

/-!
# The registry of type names

The registry knows the name of every shape that has one and keeps all names that are spoken for.
Equal shapes share a name, and no name is handed out twice.
-/

namespace ResourceTypes.Naming

structure Registry where
  /-- The names of shapes, the latest first. -/
  names : List (Signature × String)
  /-- All names that are taken, each once. -/
  reserved : List String

namespace Registry

def empty : Registry := ⟨[], []⟩

def isReserved (r : Registry) (name : String) : Bool :=
  name ∈ r.reserved

def size (r : Registry) : Nat :=
  r.reserved.length

/-- Take a name, whether or not somebody holds it already. -/
def reserve (r : Registry) (name : String) : Registry :=
  if r.isReserved name then r else { r with reserved := name :: r.reserved }

def reserveAll (r : Registry) (names : List String) : Registry :=
  names.foldl reserve r

/-- The first candidate that is free, or else the first free numbered fallback. -/
def freeName (r : Registry) (c : Candidates) : String :=
  match c.ordered.find? fun name => name ≠ "" && !r.isReserved name with
  | some name => name
  | none => firstFree r.reserved (numbered c.fallback)

/-- The name of a shape. A shape without one gets a free name; `fresh` tells that it did. -/
structure Assigned where
  name : String
  fresh : Bool
  registry : Registry

def assign (r : Registry) (signature : Signature) (c : Candidates) : Assigned :=
  match r.names.lookup signature with
  | some name => ⟨name, false, r⟩
  | none =>
    let name := r.freeName c
    ⟨name, true, ⟨(signature, name) :: r.names, name :: r.reserved⟩⟩

end Registry

end ResourceTypes.Naming
