/-!
# Lists of keyed values

A keyed list holds pairs of a name and a value. Setting a key that is there replaces its value in
place, and a new key goes to the end, so the keys keep the order of their first appearance.
-/

namespace ResourceTypes.Keyed

variable {α : Type}

/-- Set a key. One that is there already keeps its place. -/
def set (key : String) (value : α) : List (String × α) → List (String × α)
  | [] => [(key, value)]
  | (k, v) :: rest => if k = key then (k, value) :: rest else (k, v) :: set key value rest

def ofPairs (pairs : List (String × α)) : List (String × α) :=
  pairs.foldl (fun fields pair => set pair.1 pair.2 fields) []

/-- Fields in the order of their keys' characters. Fields of one key keep their order. -/
def sort (fields : List (String × α)) : List (String × α) :=
  fields.mergeSort fun a b => decide (a.1 ≤ b.1)

end ResourceTypes.Keyed
