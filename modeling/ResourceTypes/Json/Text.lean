import ResourceTypes.Json.Basic

/-!
# JSON text

The compact text has no blanks at all. The pretty text puts every item and field on a line of its
own, two spaces deeper than its container.
-/

namespace ResourceTypes.Json

def hexDigit (n : Nat) : Char :=
  Nat.digitChar (n % 16)

/-- Quotes, backslashes and control characters are escaped, all else stands for itself. -/
def escapeChar (c : Char) : List Char :=
  match c with
  | '"' => ['\\', '"']
  | '\\' => ['\\', '\\']
  | '\x08' => ['\\', 'b']
  | '\x0c' => ['\\', 'f']
  | '\n' => ['\\', 'n']
  | '\r' => ['\\', 'r']
  | '\t' => ['\\', 't']
  | c =>
    if c.toNat < 32 then ['\\', 'u', '0', '0', hexDigit (c.toNat / 16), hexDigit c.toNat]
    else [c]

def quote (s : String) : List Char :=
  '"' :: s.toList.flatMap escapeChar ++ ['"']

def Number.chars : Number → List Char
  | .int n => Decimal.intChars n
  | .float d => d.chars

def boolChars (b : Bool) : List Char :=
  if b then ['t', 'r', 'u', 'e'] else ['f', 'a', 'l', 's', 'e']

def nullChars : List Char :=
  ['n', 'u', 'l', 'l']

mutual

def chars : Json → List Char
  | .null => nullChars
  | .bool b => boolChars b
  | .num n => n.chars
  | .str s => quote s
  | .arr [] => ['[', ']']
  | .arr (x :: xs) => '[' :: (chars x ++ tailChars xs)
  | .obj [] => ['\x7b', '\x7d']
  | .obj ((k, v) :: fields) => '\x7b' :: (quote k ++ ':' :: (chars v ++ tailFieldChars fields))

def tailChars : List Json → List Char
  | [] => [']']
  | x :: xs => ',' :: (chars x ++ tailChars xs)

def tailFieldChars : List (String × Json) → List Char
  | [] => ['\x7d']
  | (k, v) :: fields => ',' :: (quote k ++ ':' :: (chars v ++ tailFieldChars fields))

end

def text (v : Json) : String :=
  String.ofList (chars v)

def newline (depth : Nat) : List Char :=
  '\n' :: List.replicate (2 * depth) ' '

mutual

def prettyChars (depth : Nat) : Json → List Char
  | .arr (x :: xs) =>
    '[' :: (newline (depth + 1) ++ (prettyChars (depth + 1) x ++ prettyTail depth xs))
  | .obj ((k, v) :: fields) =>
    '\x7b' :: (newline (depth + 1) ++ (quote k ++ ':' :: ' ' ::
      (prettyChars (depth + 1) v ++ prettyTailFields depth fields)))
  | .arr [] => ['[', ']']
  | .obj [] => ['\x7b', '\x7d']
  | .null => nullChars
  | .bool b => boolChars b
  | .num n => n.chars
  | .str s => quote s

def prettyTail (depth : Nat) : List Json → List Char
  | [] => newline depth ++ [']']
  | x :: xs => ',' :: (newline (depth + 1) ++ (prettyChars (depth + 1) x ++ prettyTail depth xs))

def prettyTailFields (depth : Nat) : List (String × Json) → List Char
  | [] => newline depth ++ ['\x7d']
  | (k, v) :: fields =>
    ',' :: (newline (depth + 1) ++ (quote k ++ ':' :: ' ' ::
      (prettyChars (depth + 1) v ++ prettyTailFields depth fields)))

end

def prettyText (v : Json) : String :=
  String.ofList (prettyChars 0 v)

end ResourceTypes.Json
