import XPathTree.Text.Unseen

/-!
# Quoted text

A text between double quotes, written so that it shows which characters it holds:
quotes, backslashes and line ends by a letter behind a backslash, and all other
characters that are not seen by number, except the space.
-/

namespace XPathTree.Text

/-- A character by its number, in hexadecimal digits between braces. -/
def byNumber (c : Char) : List Char :=
  ['\\', 'u', '\x7b'] ++ Nat.toDigits 16 c.toNat ++ ['\x7d']

/-- A character as it stands between quotes. -/
def quoteChar (c : Char) : List Char :=
  match c with
  | '"' => ['\\', '"']
  | '\\' => ['\\', '\\']
  | '\t' => ['\\', 't']
  | '\n' => ['\\', 'n']
  | '\r' => ['\\', 'r']
  | '\x00' => ['\\', '0']
  | ' ' => [' ']
  | _ => if isUnseen c then byNumber c else [c]

/-- A text between quotes. -/
def quote (text : String) : String :=
  String.ofList ('"' :: text.toList.flatMap quoteChar ++ ['"'])

end XPathTree.Text
