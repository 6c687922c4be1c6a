import Quotation.Tree.Node
/-!
# Host syntax

What a host parser hands over for an expression: operator precedence is resolved,
and besides literals, identifiers, applications and argument lists there are only
the two markers, unquote and unquote-splice. A definition `name := value` is an
application of `:=`; it gets its meaning in templates.

`quote` turns syntax into a node literally, a marker becoming a call of the
function of its name. `render` goes back and reads such calls as markers.
-/

namespace Quotation

inductive Syntax where
  | literal (c : Constant)
  | ident (name : String)
  | apply (head : Syntax) (args : List (Arg Syntax))
  | list (args : List (Arg Syntax))
  | unquote (expr : Syntax)
  | splice (expr : Syntax)
deriving Inhabited

/-- The name under which an unquote is called. -/
def unquoteName : String := "!!"

/-- The name under which an unquote-splice is called. -/
def spliceName : String := "!!!"

/-- The operator of definitions. -/
def defineName : String := ":="

namespace Syntax

/-- The identifier without a name, which is the missing argument. -/
def missing : Syntax := ident ""

/-- `name := value`. -/
def define (name value : Syntax) : Syntax :=
  apply (ident defineName) [.unnamed name, .unnamed value]

mutual
/-- Whether a marker occurs anywhere, operands of markers aside. -/
def hasMarker : Syntax → Bool
  | literal _ => false
  | ident _ => false
  | unquote _ => true
  | splice _ => true
  | apply head args => hasMarker head || anyMarker args
  | list args => anyMarker args

def anyMarker : List (Arg Syntax) → Bool
  | [] => false
  | a :: as => hasMarker a.value || anyMarker as
end

mutual
/-- The node that the syntax spells. -/
def quote : Syntax → Node
  | literal c => .const c
  | ident name => .symbol name
  | apply head args => .call head.quote (quoteArgs args)
  | list args => .pairlist (quoteArgs args)
  | unquote expr => .call (.symbol unquoteName) [.unnamed expr.quote]
  | splice expr => .call (.symbol spliceName) [.unnamed expr.quote]

def quoteArgs : List (Arg Syntax) → List (Arg Node)
  | [] => []
  | a :: as => ⟨a.name, a.value.quote⟩ :: quoteArgs as
end

end Syntax

namespace Node

mutual
/-- The syntax of a node. A call of `!!` or `!!!` with one argument, unnamed, is
the marker. -/
def render : Node → Syntax
  | const c => .literal c
  | symbol name => .ident name
  | call head [⟨none, x⟩] =>
    if head = symbol unquoteName then .unquote x.render
    else if head = symbol spliceName then .splice x.render
    else .apply head.render [.unnamed x.render]
  | call head args => .apply head.render (renderArgs args)
  | pairlist args => .list (renderArgs args)

def renderArgs : List (Arg Node) → List (Arg Syntax)
  | [] => []
  | a :: as => ⟨a.name, a.value.render⟩ :: renderArgs as
end

end Node

end Quotation
