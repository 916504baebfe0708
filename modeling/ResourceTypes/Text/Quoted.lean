import ResourceTypes.Text.Hidden

/-!
# Quoted text

Text between double quotes, in which every character is visible. Quotes and backslashes are escaped,
four control characters have short names, and all other invisible characters are spelled as their
number in hexadecimal. A single quote stands for itself.
-/

namespace ResourceTypes.Text

def hexChars (n : Nat) : List Char :=
  Nat.toDigits 16 n

def quoteChar (c : Char) : List Char :=
  match c with
  | '"' => ['\\', '"']
  | '\\' => ['\\', '\\']
  | '\n' => ['\\', 'n']
  | '\r' => ['\\', 'r']
  | '\t' => ['\\', 't']
  | '\x00' => ['\\', '0']
  | c => if isHidden c then '\\' :: 'u' :: '\x7b' :: hexChars c.toNat ++ ['\x7d'] else [c]

def quotedChars (cs : List Char) : List Char :=
  '"' :: cs.flatMap quoteChar ++ ['"']

def quoted (s : String) : String :=
  String.ofList (quotedChars s.toList)

end ResourceTypes.Text
