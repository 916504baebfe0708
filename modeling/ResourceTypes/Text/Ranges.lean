/-!
# Tables of character ranges

Properties of characters are kept as the ranges that have them. Maps between letters are kept as
runs, since most scripts place the two cases of a letter at a constant distance.
-/

namespace ResourceTypes.Text

def inRanges (ranges : List (Nat × Nat)) (c : Char) : Bool :=
  ranges.any fun range => range.1 ≤ c.toNat && c.toNat ≤ range.2

/-- Characters from `first` to `last`, every `stride`-th of them, each mapped `shift` further. -/
structure Run where
  first : Nat
  last : Nat
  stride : Nat
  shift : Int

def Run.covers (run : Run) (c : Char) : Bool :=
  run.first ≤ c.toNat && c.toNat ≤ run.last && (c.toNat - run.first) % run.stride = 0

/-- The image of a character under the first run that covers it, or the character itself. -/
def mapRuns (runs : List Run) (c : Char) : Char :=
  match runs.find? (·.covers c) with
  | some run => Char.ofNat (c.toNat + run.shift).toNat
  | none => c

end ResourceTypes.Text
