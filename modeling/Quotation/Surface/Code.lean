import Quotation.Surface.Token
import Quotation.Surface.Form
import Quotation.Text.Literal
/-!
# Generated code

The tokens of an expression that constructs the host syntax of a form.
-/

namespace Quotation.Surface

namespace Code

/-- Two colons, the mark between the parts of a path. -/
def separator : List Token := [.punct ':' true, .punct ':' false]

/-- An absolute path. -/
def path (parts : List String) : List Token := parts.flatMap fun p => separator ++ [.ident p]

def comma : Token := .punct ',' false

/-- A call of the function at a path. -/
def call (parts : List String) (arguments : List Token) : List Token :=
  path parts ++ [.group .paren arguments]

/-- Token sequences with commas between them. -/
def commaSeparated : List (List Token) → List Token
  | [] => []
  | [ts] => ts
  | ts :: rest => ts ++ comma :: commaSeparated rest

/-- A vector of the given items. -/
def vector (items : List (List Token)) : List Token :=
  [.ident "vec", .punct '!' false, .group .bracket (commaSeparated items)]

/-- A string as a literal token. -/
def string (s : String) : Token := .literal (String.ofList (Text.literal s))

/-- The constructors of host syntax. -/
def construct (constructor : String) (arguments : List Token) : List Token :=
  call ["quasi", "Syntax", constructor] arguments

/-- The code of an argument, from the code of its value. -/
def argument (name : Option String) (value : List Token) : List Token :=
  match name with
  | some name => call ["quasi", "SyntaxArg", "named"] (string name :: comma :: value)
  | none => call ["quasi", "SyntaxArg", "positional"] value

end Code

open Code

mutual
/-- The code of a form. -/
def Form.code : Form → List Token
  | .nil => construct "literal" [.group .paren []]
  | .missing => construct "missing" []
  | .literal text => construct "literal" [.literal text]
  | .negated text => construct "literal" [.punct '-' false, .literal text]
  | .bool b => construct "literal" [.ident (if b then "true" else "false")]
  | .ident name => construct "ident" [string name]
  | .unquote form => construct "unquote" form.code
  | .splice form => construct "unquote_splice" form.code
  | .apply head args => construct "apply" (head.code ++ comma :: vector (argCodes args))
  | .list args => construct "list" (vector (argCodes args))

/-- The code of each argument. -/
def argCodes : List (Arg Form) → List (List Token)
  | [] => []
  | a :: as => argument a.name a.value.code :: argCodes as
end

end Quotation.Surface
