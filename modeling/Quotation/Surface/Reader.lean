import Quotation.Surface.Token
import Quotation.Surface.Form
/-!
# Reading the surface notation

An application is a parenthesized sequence of a head and arguments, `()` is `NULL`,
`,` and `,@` are the markers, and `#` introduces what identifiers cannot spell:
`#t`, `#f`, `#nil`, `#missing`, `#"any name"` and argument lists `#(...)`. An
argument is named by `:name` or `#:name` before it. Operator characters are
identifiers; written without blanks between them they are one.

The functions take a bound on the number of tokens they may read, which `read`
sets beyond what there is.
-/

namespace Quotation.Surface

/-- Why tokens are not in the notation. -/
inductive ReadError where
  | expectedString (literal : String)
  | unexpectedToken (token : Token)
  | unexpectedChar (c : Char)
  | unexpectedDelimiter (delimiter : Delimiter)
  /-- a name where a form is expected -/
  | misplacedName (name : String)
  /-- a name that no argument follows -/
  | missingValue (name : String)
  | trailingTokens
  | unexpectedEnd

/-- What is at fault, as text. -/
def ReadError.text : ReadError → String
  | expectedString literal => literal
  | unexpectedToken token => token.brief
  | unexpectedChar c => c.toString
  | unexpectedDelimiter delimiter => delimiter.openText
  | misplacedName name => name
  | missingValue name => name
  | trailingTokens => ""
  | unexpectedEnd => ""

/-- Something read: a form, or the name of the argument that follows. -/
inductive Item where
  | form (f : Form)
  | name (n : String)

namespace Reader

/-- The characters that identifiers can be made of besides words. -/
def operatorChars : List Char :=
  ['!', '$', '%', '&', '*', '+', '-', '.', '/', ':', '<', '=', '>', '?', '@', '^', '|', '~']

def isOperatorChar (c : Char) : Bool := operatorChars.contains c

/-- What is between the quotes of a string literal, as it is written. -/
def stringBody? (literal : String) : Option String :=
  match literal.toList with
  | '"' :: rest =>
    if rest.getLast? = some '"' then some (String.ofList rest.dropLast) else none
  | _ => none

/-- The name that a literal spells. -/
def literalName (literal : String) : Except ReadError String :=
  match stringBody? literal with
  | some name => .ok name
  | none => .error (.expectedString literal)

/-- The rest of an identifier after an operator character that is joined to what
follows: operator characters up to one that is not joined, or a word. -/
def joined (acc : String) : List Token → String × List Token
  | .punct c joint :: rest =>
    if isOperatorChar c then
      if joint then joined (acc.push c) rest else (acc.push c, rest)
    else (acc, .punct c joint :: rest)
  | .ident name :: rest => (acc ++ name, rest)
  | rest => (acc, rest)

/-- The name of an argument, after its colon. -/
def argName : List Token → Except ReadError (Item × List Token)
  | .literal text :: rest => return (.name (← literalName text), rest)
  | .ident name :: rest => .ok (.name name, rest)
  | token :: _ => .error (.unexpectedToken token)
  | [] => .error .unexpectedEnd

/-- The item that begins with an operator character. -/
def operator (c : Char) (joint : Bool) (rest : List Token) : Except ReadError (Item × List Token) :=
  if joint then
    let (name, rest) := joined c.toString rest
    .ok (.form (.ident name), rest)
  else if c = ':' then argName rest
  else
    match c, rest with
    | '-', .literal text :: rest => .ok (.form (.negated text), rest)
    | _, _ => .ok (.form (.ident c.toString), rest)

/-- The word after `#`. -/
def hashWord (name : String) : Except ReadError Form :=
  match name with
  | "t" => .ok (.bool true)
  | "f" => .ok (.bool false)
  | "nil" => .ok .nil
  | "missing" => .ok .missing
  | _ => .error (.unexpectedToken (.ident name))

mutual
/-- Reads one item. -/
def item : Nat → List Token → Except ReadError (Item × List Token)
  | 0, _ => .error .unexpectedEnd
  | _ + 1, [] => .error .unexpectedEnd
  | n + 1, .punct c joint :: rest =>
    if c = '#' then hash n rest
    else if c = ',' then do
      let (f, rest) ← marker n rest
      return (.form f, rest)
    else if isOperatorChar c then operator c joint rest
    else .error (.unexpectedChar c)
  | _ + 1, .literal text :: rest => .ok (.form (.literal text), rest)
  | _ + 1, .ident name :: rest => .ok (.form (.ident name), rest)
  | n + 1, .group .paren tokens :: rest => return (.form (← application n tokens), rest)
  | _ + 1, .group delimiter _ :: _ => .error (.unexpectedDelimiter delimiter)

/-- Reads one form. -/
def form : Nat → List Token → Except ReadError (Form × List Token)
  | 0, _ => .error .unexpectedEnd
  | n + 1, tokens => do
    match ← item n tokens with
    | (.form f, rest) => return (f, rest)
    | (.name name, _) => .error (.misplacedName name)

/-- Reads what follows a comma: the operand of an unquote, or after `@` that of a
splice. -/
def marker : Nat → List Token → Except ReadError (Form × List Token)
  | 0, _ => .error .unexpectedEnd
  | n + 1, .punct '@' _ :: rest => do
    let (f, rest) ← form n rest
    return (.splice f, rest)
  | n + 1, tokens => do
    let (f, rest) ← form n tokens
    return (.unquote f, rest)

/-- Reads what follows `#`. -/
def hash : Nat → List Token → Except ReadError (Item × List Token)
  | 0, _ => .error .unexpectedEnd
  | _ + 1, [] => .error .unexpectedEnd
  | _ + 1, .punct c _ :: rest => if c = ':' then argName rest else .error (.unexpectedChar c)
  | _ + 1, .literal text :: rest => return (.form (.ident (← literalName text)), rest)
  | _ + 1, .ident name :: rest => return (.form (← hashWord name), rest)
  | n + 1, .group .paren tokens :: rest => return (.form (.list (← args n tokens)), rest)
  | _ + 1, .group delimiter _ :: _ => .error (.unexpectedDelimiter delimiter)

/-- Reads arguments to the end. -/
def args : Nat → List Token → Except ReadError (List (Arg Form))
  | _, [] => .ok []
  | 0, _ => .error .unexpectedEnd
  | n + 1, tokens => do
    match ← item n tokens with
    | (.form f, rest) => return .unnamed f :: (← args n rest)
    | (.name name, []) => .error (.missingValue name)
    | (.name name, rest) => do
      let (f, rest) ← form n rest
      return .named name f :: (← args n rest)

/-- Reads a parenthesized head with its arguments. -/
def application : Nat → List Token → Except ReadError Form
  | _, [] => .ok .nil
  | 0, _ => .error .unexpectedEnd
  | n + 1, tokens => do
    let (head, rest) ← form n tokens
    return .apply head (← args n rest)
end

end Reader

/-- The form that a stream of tokens describes. Each token takes at most three
steps of reading. -/
def read (tokens : List Token) : Except ReadError Form := do
  match ← Reader.form (4 * Token.countAll tokens + 4) tokens with
  | (f, []) => return f
  | (_, _ :: _) => .error .trailingTokens

end Quotation.Surface
