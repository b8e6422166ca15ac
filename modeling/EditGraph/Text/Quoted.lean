import EditGraph.Text.Printable

/-!
# Quoted texts

A quoted text stands between double quotes and shows every character by printable ones.
Double quotes, backslashes and the common controls have short escapes; any other character
that does not show by itself is written by its code point in hexadecimal. A single quote
needs no escape.

## Main definitions

* `escapeChar` — how a character is written between quotes.
* `quote` — the quoted text.
-/

namespace EditGraph.Text

/-- A character as it stands between quotes. -/
def escapeChar (c : Char) : List Char :=
  match c with
  | '\x00' => ['\\', '0']
  | '\t' => ['\\', 't']
  | '\n' => ['\\', 'n']
  | '\r' => ['\\', 'r']
  | '\\' => ['\\', '\\']
  | '"' => ['\\', '"']
  | c =>
    if isPrintable c then [c]
    else ['\\', 'u', '\x7b'] ++ Nat.toDigits 16 c.toNat ++ ['\x7d']

/-- The text between double quotes, with escapes. -/
def quote (s : String) : String :=
  String.ofList ('"' :: s.toList.flatMap escapeChar ++ ['"'])

end EditGraph.Text
