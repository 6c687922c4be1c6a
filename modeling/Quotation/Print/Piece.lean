import Quotation.Tree.Constant
import Quotation.Text.Name
import Quotation.Text.Escape
import Quotation.Decimal.Layout
/-!
# Printed expressions as pieces

Printing yields a sequence of pieces, each a token or a mark between tokens. A
formatter says how a piece is written, so one sequence serves every style of
output. `Formatter.standard` is the notation of the language; `Formatter.marked`
makes every piece visible.
-/

namespace Quotation.Print

/-- What printing yields, in order. -/
inductive Piece where
  | null
  | bool (b : Bool)
  | number (n : Number)
  | stringStart
  /-- characters of a string that stand for themselves -/
  | fragment (s : List Char)
  /-- a character of a string that is escaped -/
  | escape (c : Char)
  | stringEnd
  | symbol (name : String)
  | missing
  | argsStart
  | argStart (first : Bool)
  | argName (name : String)
  | argsEnd
  | operator (name : String) (spaced : Bool)
  | groupStart
  | groupEnd
  /-- the words and brackets of `if`, `function`, blocks, indices and lists -/
  | text (s : String)
deriving DecidableEq

/-- How each piece is written. -/
abbrev Formatter := Piece → List Char

namespace Formatter

/-- The notation of the language, with or without quotes around names that are
not syntactic. Names of arguments follow the same choice. -/
def standard (quoteNames : Bool) : Formatter
  | .null => "NULL".toList
  | .bool b => if b then "TRUE".toList else "FALSE".toList
  | .number n => n.text .printed
  | .stringStart => ['"']
  | .fragment s => s
  | .escape c => Text.escape c
  | .stringEnd => ['"']
  | .symbol name => nameText name
  | .missing => []
  | .argsStart => ['(']
  | .argStart first => if first then [] else [',', ' ']
  | .argName name => nameText name ++ [' ', '=', ' ']
  | .argsEnd => [')']
  | .operator name spaced => if spaced then ' ' :: name.toList ++ [' '] else name.toList
  | .groupStart => ['(']
  | .groupEnd => [')']
  | .text s => s.toList
where
  nameText (name : String) : List Char :=
    if quoteNames then Text.writeName name else name.toList

/-- The word for an escaped character in marked output. -/
def escapeWord (c : Char) : String :=
  match Text.escapeLetter? c with
  | some '"' => "quote"
  | some '\\' => "backslash"
  | some 'a' => "alert"
  | some 'b' => "backspace"
  | some 'f' => "formfeed"
  | some 'n' => "linefeed"
  | some 'r' => "return"
  | some 't' => "tab"
  | some 'v' => "vtab"
  | _ => "ctl " ++ toString c.toNat

/-- Every piece in angle brackets. -/
def marked : Formatter
  | .null => "<null>".toList
  | .bool b => mark ["bool", truth b]
  | .number n => mark ["num", n.display]
  | .stringStart => "<str ".toList
  | .fragment s => '\'' :: s ++ ['\'']
  | .escape c => mark [escapeWord c]
  | .stringEnd => ['>']
  | .symbol name => mark ["sym", name]
  | .missing => "<missing>".toList
  | .argsStart => "<args ".toList
  | .argStart first => [if first then '^' else ';']
  | .argName name => mark ["name", name]
  | .argsEnd => ['>']
  | .operator name spaced => mark ["op", name, truth spaced]
  | .groupStart => "<group ".toList
  | .groupEnd => ['>']
  | .text s => s.toList
where
  truth (b : Bool) : String := if b then "true" else "false"
  mark (words : List String) : List Char := '<' :: (" ".intercalate words).toList ++ ['>']

end Formatter

/-- The text of a sequence of pieces. -/
def write (formatter : Formatter) (pieces : List Piece) : List Char := pieces.flatMap formatter

/-- The characters of a string constant: escapes, and between them the longest
runs of characters that stand for themselves. -/
def stringBody : List Char → List Piece
  | [] => []
  | c :: cs =>
    if Text.needsEscape c then .escape c :: stringBody cs
    else
      match stringBody cs with
      | .fragment s :: rest => .fragment (c :: s) :: rest
      | rest => .fragment [c] :: rest

def constant : Constant → List Piece
  | .null => [.null]
  | .bool b => [.bool b]
  | .number n => [.number n]
  | .string s => .stringStart :: stringBody s.toList ++ [.stringEnd]

end Quotation.Print
