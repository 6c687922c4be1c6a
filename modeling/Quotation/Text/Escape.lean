/-!
# Escapes in string constants

A string constant is written between double quotes. Quotes, backslashes and the
ASCII control characters are escaped: by a letter where there is one, else by two
hexadecimal digits. All other characters stand for themselves.
-/

namespace Quotation.Text

/-- The character after the backslash, for characters that have such an escape. -/
def escapeLetter? (c : Char) : Option Char :=
  if c = '"' then some '"'
  else if c = '\\' then some '\\'
  else if c = '\x07' then some 'a'
  else if c = '\x08' then some 'b'
  else if c = '\x0c' then some 'f'
  else if c = '\n' then some 'n'
  else if c = '\r' then some 'r'
  else if c = '\t' then some 't'
  else if c = '\x0b' then some 'v'
  else none

/-- Whether a character cannot stand for itself in a string constant. -/
def needsEscape (c : Char) : Bool :=
  c == '"' || c == '\\' || c.toNat < 0x20 || c.toNat == 0x7F

/-- The escape of a character that needs one. -/
def escape (c : Char) : List Char :=
  match escapeLetter? c with
  | some letter => ['\\', letter]
  | none => ['\\', 'x', Nat.digitChar (c.toNat / 16), Nat.digitChar (c.toNat % 16)]

end Quotation.Text
