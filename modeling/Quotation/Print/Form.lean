import Quotation.Print.Piece
import Quotation.Print.Operator
import Quotation.Arg
/-!
# Forms of calls

A call is written as an operator, a block, a condition, a function, an index or,
if it is none of these, as a head with its arguments in parentheses. Which one
depends on the name of the head and on the arguments, and how it is written
depends only on how its parts are written. `Printed` holds what a part tells the
call around it.
-/

namespace Quotation.Print

/-- How a node is written, and what decides whether it needs a group. -/
structure Printed where
  /-- The name, if the node is a symbol. -/
  symbol? : Option String
  /-- The level of its outermost operator. A node without one never needs a
  group. -/
  level : Option Nat
  /-- If the node is an argument list: how it is written as the parameters of a
  function. -/
  formals? : Option (List Piece)
  pieces : List Piece

/-- Whether operators are written between their operands or as any other head. -/
inductive Placement where
  | between
  | front
deriving DecidableEq

namespace Printed

def isMissing (p : Printed) : Bool := p.symbol? == some ""

/-- The pieces, in a group if asked for. -/
def grouped (p : Printed) (group : Bool) : List Piece :=
  if group then .groupStart :: p.pieces ++ [.groupEnd] else p.pieces

/-- Whether an operand needs a group on one side of an operator: it binds looser,
or equally and the operator does not take such an operand there. -/
def needsGroup (p : Printed) (op : Operator) (side : Side) : Bool :=
  match p.level with
  | none => false
  | some level => level < op.level || level == op.level && op.side != some side

/-- Arguments, each with a mark before it and with its name. -/
def argList (first : Bool) : List (Arg Printed) → List Piece
  | [] => []
  | a :: as =>
    .argStart first :: (a.name.map Piece.argName).toList ++ a.value.pieces ++ argList false as

/-- Arguments in parentheses. -/
def parenthesized (args : List (Arg Printed)) : List Piece :=
  .argsStart :: argList true args ++ [.argsEnd]

/-- The parameters of a function: as arguments, but a name without a default
stands alone. -/
def formalList (first : Bool) : List (Arg Printed) → List Piece
  | [] => []
  | a :: as =>
    .argStart first ::
      (match a.name with
        | some name =>
          if a.value.isMissing then [.symbol name] else .argName name :: a.value.pieces
        | none => a.value.pieces) ++ formalList false as

/-- Expressions with semicolons between them. -/
def sequence : List Printed → List Piece
  | [] => []
  | [p] => p.pieces
  | p :: ps => p.pieces ++ .text "; " :: sequence ps

end Printed

/-- The ways of writing a call. -/
inductive Form where
  | binary (name : String) (op : Operator) (lhs rhs : Printed)
  | unary (name : String) (level : Nat) (operand : Printed)
  | paren (inner : Printed)
  | block (body : List Printed)
  | condition (test yes : Printed) (no : Option Printed)
  | function (formals : List Piece) (body : Printed)
  | index (double : Bool) (object : Printed) (rest : List (Arg Printed))
  | call (head : Printed) (args : List (Arg Printed))

namespace Form

/-- All arguments are unnamed and none is missing. -/
def isPlain (args : List (Arg Printed)) : Bool :=
  args.all fun a => a.name.isNone && !a.value.isMissing

/-- The forms with a notation of their own. -/
def special? (name : String) (args : List (Arg Printed)) : Option Form :=
  match name, args with
  | "(", [inner] => if isPlain args then some (.paren inner.value) else none
  | "\x7b", _ => if isPlain args then some (.block (args.map (·.value))) else none
  | "if", [test, yes] =>
    if isPlain args then some (.condition test.value yes.value none) else none
  | "if", [test, yes, no] =>
    if isPlain args then some (.condition test.value yes.value (some no.value)) else none
  | "function", [formals, body] => formals.value.formals?.map fun fs => .function fs body.value
  | "function", [formals, body, _] => formals.value.formals?.map fun fs => .function fs body.value
  | "[", object :: rest =>
    if isPlain [object] then some (.index false object.value rest) else none
  | "[[", object :: rest =>
    if isPlain [object] then some (.index true object.value rest) else none
  | _, _ => none

/-- The forms of operators. -/
def operator? (name : String) (args : List (Arg Printed)) : Option Form :=
  if isPlain args then
    match args with
    | [lhs, rhs] => (binaryOperator? name).map fun op => .binary name op lhs.value rhs.value
    | [operand] => (unaryLevel? name).map fun level => .unary name level operand.value
    | _ => none
  else none

/-- The form of a call, by the name of its head. -/
def ofCall (placement : Placement) (head : Printed) (args : List (Arg Printed)) : Form :=
  match placement, head.symbol? with
  | .between, some name => (special? name args <|> operator? name args).getD (.call head args)
  | _, _ => .call head args

/-- The level of the outermost operator. -/
def level : Form → Option Nat
  | binary _ op _ _ => some op.level
  | unary _ level _ => some level
  | condition _ _ _ => some openLevel
  | function _ _ => some openLevel
  | _ => none

def pieces : Form → List Piece
  | binary name op lhs rhs =>
    lhs.grouped (lhs.needsGroup op .left) ++
      .operator name op.spaced :: rhs.grouped (rhs.needsGroup op .right)
  | unary name level operand =>
    .operator name false :: operand.grouped (operand.level.any (· < level))
  | paren inner => inner.grouped true
  | block [] => [.text "\x7b\x7d"]
  | block body => .text "\x7b " :: Printed.sequence body ++ [.text " \x7d"]
  | condition test yes no =>
    .text "if (" :: test.pieces ++ .text ") " :: yes.pieces ++
      (match no with
        | some no => .text " else " :: no.pieces
        | none => [])
  | function formals body => .text "function" :: formals ++ .text " " :: body.pieces
  | index double object rest =>
    object.grouped object.level.isSome ++
      .text (if double then "[[" else "[") :: Printed.argList true rest ++
      [.text (if double then "]]" else "]")]
  | call head args => head.grouped head.level.isSome ++ Printed.parenthesized args

end Form

end Quotation.Print
