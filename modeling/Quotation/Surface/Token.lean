/-!
# Token trees

The tokens that the surface notation of expressions is read from, and that
generated code consists of. Brackets are matched: a group holds its tokens.
-/

namespace Quotation.Surface

inductive Delimiter where
  | paren
  | bracket
  | brace
  /-- a group without brackets of its own -/
  | none
deriving DecidableEq

inductive Token where
  /-- a punctuation character, and whether the next one follows without a blank -/
  | punct (c : Char) (joint : Bool)
  | literal (text : String)
  | ident (name : String)
  | group (delimiter : Delimiter) (tokens : List Token)
deriving Inhabited

namespace Delimiter

def openText : Delimiter → String
  | paren => "("
  | bracket => "["
  | brace => "\x7b"
  | none => ""

def closeText : Delimiter → String
  | paren => ")"
  | bracket => "]"
  | brace => "\x7d"
  | none => ""

end Delimiter

namespace Token

/-- The token as messages show it. Of a group only the brackets are shown. -/
def brief : Token → String
  | punct c _ => c.toString
  | literal text => text
  | ident name => name
  | group delimiter _ => delimiter.openText ++ delimiter.closeText

mutual
/-- The tokens that a token stands for in a stream: a literal with a sign is a
minus and a literal. -/
def spread : Token → List Token
  | punct c joint => [punct c joint]
  | literal text =>
    match text.toList with
    | '-' :: rest => [punct '-' false, literal (String.ofList rest)]
    | _ => [literal text]
  | ident name => [ident name]
  | group delimiter tokens => [group delimiter (stream tokens)]

/-- A stream of tokens. -/
def stream : List Token → List Token
  | [] => []
  | t :: ts => spread t ++ stream ts
end

mutual
/-- The number of tokens in a tree. -/
def count : Token → Nat
  | punct _ _ => 1
  | literal _ => 1
  | ident _ => 1
  | group _ tokens => 1 + countAll tokens

def countAll : List Token → Nat
  | [] => 0
  | t :: ts => count t + countAll ts
end

mutual
/-- The words of a token, each with a blank after it unless the next token is to
follow at once. -/
def words : Token → String
  | punct c joint => if joint then c.toString else c.toString ++ " "
  | literal text => text ++ " "
  | ident name => name ++ " "
  | group delimiter tokens =>
    delimiter.openText ++ " " ++ wordsAll tokens ++ delimiter.closeText ++ " "

def wordsAll : List Token → String
  | [] => ""
  | t :: ts => words t ++ wordsAll ts
end

/-- The text of a stream of tokens. -/
def text (tokens : List Token) : String := (wordsAll tokens).trimAsciiEnd.toString

end Token

end Quotation.Surface
