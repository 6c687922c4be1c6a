import Quotation.Print.Form
import Quotation.Tree.Node
/-!
# Printing

The text of a node. Operators get the groups that keep the tree readable from the
text, names that are not syntactic are quoted, arguments are written as
`name = value`, and the missing argument is written as nothing.
-/

namespace Quotation

open Print

namespace Print

/-- The level at which a constant binds: a number below zero begins with a minus
sign and binds like a negation. -/
def constantLevel : Constant → Option Nat
  | .number n => if n.isBelowZero then some negationLevel else none
  | _ => none

namespace Printed

def ofConstant (c : Constant) : Printed := ⟨none, constantLevel c, none, constant c⟩

def ofSymbol (name : String) : Printed :=
  ⟨some name, none, none, [if name.isEmpty then .missing else .symbol name]⟩

def ofCall (placement : Placement) (head : Printed) (args : List (Arg Printed)) : Printed :=
  let form := Form.ofCall placement head args
  ⟨none, form.level, none, form.pieces⟩

def ofPairlist (args : List (Arg Printed)) : Printed :=
  ⟨none, none, some (.argsStart :: formalList true args ++ [.argsEnd]),
    .text "pairlist" :: parenthesized args⟩

end Printed

end Print

namespace Node

mutual
/-- How a node is written. -/
def printed (placement : Placement) : Node → Printed
  | const c => .ofConstant c
  | symbol name => .ofSymbol name
  | call head args => .ofCall placement (head.printed placement) (printedArgs placement args)
  | pairlist args => .ofPairlist (printedArgs placement args)

def printedArgs (placement : Placement) : List (Arg Node) → List (Arg Printed)
  | [] => []
  | a :: as => ⟨a.name, a.value.printed placement⟩ :: printedArgs placement as
end

/-- The characters of a node, with operators placed as asked. -/
def print (placement : Placement) (formatter : Formatter) (n : Node) : List Char :=
  write formatter (n.printed placement).pieces

/-- The text of a node in the notation of the language. -/
def text (n : Node) : String := String.ofList (n.print .between (.standard true))

end Node

namespace Print

/-- What has been written when the output takes only so many bytes. -/
inductive Output where
  | complete (text : String)
  /-- the bytes that fit -/
  | truncated (bytes : ByteArray)

/-- Writes text to an output of limited size. -/
def Output.within (limit : Nat) (text : String) : Output :=
  let bytes := text.toUTF8
  if bytes.size ≤ limit then .complete text else .truncated (bytes.extract 0 limit)

end Print

end Quotation
