import Quotation.Text.Alphabetic
import Quotation.Text.Numeric
/-!
# Names

A syntactic name can be written as it is. Every other name is written between
backticks, with a backslash before each backtick of its own.
-/

namespace Quotation.Text

/-- Words of the language, which no syntactic name may be. -/
def reservedWords : List (List Char) :=
  ["if", "else", "repeat", "while", "function", "for", "next", "break", "TRUE", "FALSE",
    "NULL", "Inf", "NaN", "NA", "in"].map String.toList

/-- A character that may follow the first one of a name. -/
def isNamePart (c : Char) : Bool :=
  isAlphabetic c || isNumeric c || c == '.' || c == '_'

/-- Begins with a letter, or with a dot that no digit follows. -/
def startsName : List Char → Bool
  | [] => false
  | ['.'] => true
  | '.' :: c :: _ => !c.isDigit
  | c :: _ => isAlphabetic c

/-- Two dots and a number, the name of an entry of the argument tail. -/
def isTailName : List Char → Bool
  | '.' :: '.' :: d :: ds => (d :: ds).all Char.isDigit
  | _ => false

/-- Whether the characters form a syntactic name. -/
def isNameText (cs : List Char) : Bool :=
  isTailName cs || startsName cs && cs.tail.all isNamePart && !reservedWords.contains cs

/-- Whether a name can be written without quotes. -/
def isSyntacticName (name : String) : Bool := isNameText name.toList

/-- The quote of names. -/
def backtick : Char := '\x60'

/-- A name between backticks. -/
def quoteName (cs : List Char) : List Char :=
  backtick :: cs.flatMap (fun c => if c = backtick then ['\\', backtick] else [c]) ++ [backtick]

/-- A name as expressions show it. -/
def writeName (name : String) : List Char :=
  if isSyntacticName name then name.toList else quoteName name.toList

example : ["x", "..", "...", "..2", ".h_1", "a1"].all isSyntacticName = true := by decide +kernel

example : ["", "if", ".2x", "a b", "_x", "1"].any isSyntacticName = false := by decide +kernel

end Quotation.Text
