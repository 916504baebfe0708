import ResourceTypes.Yaml.Gap

/-!
# Quoted scalars

Between single quotes only the quote itself is special, and it is written twice. Between double
quotes a backslash begins an escape. Gaps are folded in both.
-/

namespace ResourceTypes.Yaml.Quoted

def hexValue? (c : Char) : Option Nat :=
  if c.isDigit then some (c.toNat - 48)
  else if 'a' ≤ c && c ≤ 'f' then some (c.toNat - 87)
  else if 'A' ≤ c && c ≤ 'F' then some (c.toNat - 55)
  else none

def hexNumber? (value : Nat) : Nat → List Char → Option Nat
  | 0, _ => some value
  | _ + 1, [] => none
  | count + 1, c :: rest => do hexNumber? (16 * value + (← hexValue? c)) count rest

def numbered (count : Nat) (rest : List Char) : Option (Char × Nat) := do
  let n ← hexNumber? 0 count rest
  if n.isValidChar then return (Char.ofNat n, count + 1) else none

def escaped : List Char → Option (Char × Nat)
  | '0' :: _ => some ('\x00', 1)
  | 'a' :: _ => some ('\x07', 1)
  | 'b' :: _ => some ('\x08', 1)
  | 't' :: _ | '\t' :: _ => some ('\t', 1)
  | 'n' :: _ => some ('\n', 1)
  | 'v' :: _ => some ('\x0b', 1)
  | 'f' :: _ => some ('\x0c', 1)
  | 'r' :: _ => some ('\r', 1)
  | 'e' :: _ => some ('\x1b', 1)
  | ' ' :: _ => some (' ', 1)
  | '"' :: _ => some ('"', 1)
  | '/' :: _ => some ('/', 1)
  | '\\' :: _ => some ('\\', 1)
  | 'N' :: _ => some ('\u0085', 1)
  | '_' :: _ => some ('\u00a0', 1)
  | 'L' :: _ => some ('\u2028', 1)
  | 'P' :: _ => some ('\u2029', 1)
  | 'x' :: rest => numbered 2 rest
  | 'u' :: rest => numbered 4 rest
  | 'U' :: rest => numbered 8 rest
  | _ => none

/-- The text up to the closing quote, its characters taken so far last first. The text must not run
into a mark of documents or into the end. Every step takes a character at least. -/
def readRest (quote : Char) : Nat → List Char → Cursor → Option (List Char × Cursor)
  | 0, _, _ => none
  | steps + 1, taken, c =>
    if c.atDocumentMark then none
    else match c.rest with
      | [] => none
      | x :: rest =>
        if x = quote then
          if quote = '\'' && rest.head? = some quote then
            readRest quote steps (quote :: taken) (c.move 2)
          else some (taken.reverse, c.move 1)
        else if quote = '"' && x = '\\' then
          if rest.head?.any isBreak then do
            let (breaks, next) ← (c.move 1).nextLine.breaks
            readRest quote steps (breaks.reverse ++ taken) next
          else do
            let (y, count) ← escaped rest
            readRest quote steps (y :: taken) (c.move (count + 1))
        else if isGap x then do
          let (gap, next) ← c.gap 0
          readRest quote steps (gap.folded.reverse ++ taken) next
        else readRest quote steps (x :: taken) (c.move 1)

/-- The quoted scalar at the cursor, which stands at its opening quote, in a text of `limit`
characters. -/
def read (limit : Nat) (quote : Char) (c : Cursor) : Option (List Char × Cursor) :=
  readRest quote (limit + 1) [] (c.move 1)

end ResourceTypes.Yaml.Quoted
