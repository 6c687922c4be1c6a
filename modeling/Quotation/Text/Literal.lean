import Quotation.Text.Printable
/-!
# Quoted text in messages and generated code

Text in double quotes in which every character can be seen: quotes, backslashes
and the common control characters have an escape letter, whatever else cannot be
printed is given by its code point. A single quote stays as it is.
-/

namespace Quotation.Text

/-- A code point in braces, in hexadecimal. -/
def codePoint (c : Char) : List Char :=
  ['\\', 'u', '\x7b'] ++ Nat.toDigits 16 c.toNat ++ ['\x7d']

/-- A character as quoted text shows it. -/
def visible (c : Char) : List Char :=
  match c with
  | '\x00' => ['\\', '0']
  | '\t' => ['\\', 't']
  | '\n' => ['\\', 'n']
  | '\r' => ['\\', 'r']
  | '"' => ['\\', '"']
  | '\\' => ['\\', '\\']
  | c => if isPrintable c then [c] else codePoint c

/-- Text in double quotes, as messages show it. -/
def quote (s : String) : List Char :=
  '"' :: s.toList.flatMap visible ++ ['"']

/-- The characters of a string literal in generated code. A NUL is written with
two digits before an octal digit, which would else seem to belong to it. -/
def literalBody : List Char → List Char
  | [] => []
  | '\x00' :: d :: rest =>
    if '0' ≤ d && d ≤ '7' then "\\x00".toList ++ literalBody (d :: rest)
    else "\\0".toList ++ literalBody (d :: rest)
  | c :: rest => visible c ++ literalBody rest

/-- A string as a literal of generated code. -/
def literal (s : String) : List Char := '"' :: literalBody s.toList ++ ['"']

end Quotation.Text
