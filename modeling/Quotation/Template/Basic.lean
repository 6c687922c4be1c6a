import Quotation.Tree.Syntax
import Quotation.Construction
/-!
# Templates

A template is an expression tree with holes: a single marker at the place of a
node, a splice at the place of an argument, and a definition at the place of a
named argument whose name is computed. A hole holds its source, the expression
that is evaluated to fill it. Whatever contains no hole is kept as a plain node.

`ofSyntax` reads host syntax as a template. It fails exactly on a splice that is
not an unnamed argument.
-/

namespace Quotation

/-- An entry of an argument list with holes. -/
inductive Part (α : Type) where
  | arg (name : Option String) (value : α)
  | splice (source : Node)
  | define (nameSource : Node) (value : α)

inductive Template where
  | node (n : Node)
  | single (source : Node)
  | call (head : Template) (args : List (Part Template))
  | pairlist (args : List (Part Template))

namespace Template

/-! ## Plain templates -/

def isPlain : Template → Bool
  | node _ => true
  | _ => false

def plain? : Template → Option Node
  | node n => some n
  | _ => none

end Template

namespace Part

/-- The argument, if the entry has no hole. -/
def plain? : Part Template → Option (Arg Node)
  | arg name (.node n) => some ⟨name, n⟩
  | _ => none

def unnamed {α : Type} (value : α) : Part α := arg none value

def ofArg (a : Arg Node) : Part Template := arg a.name (.node a.value)

end Part

namespace Template

/-- The arguments, if none of them has a hole. -/
def plainArgs? (args : List (Part Template)) : Option (List (Arg Node)) := args.mapM Part.plain?

/-! ## Constructions -/

/-- A call that is a plain node where nothing in it is a hole. -/
def apply (head : Template) (args : List (Part Template)) : Template :=
  match head.plain?, plainArgs? args with
  | some h, some as => node (.call h as)
  | _, _ => call head args

/-- An argument list that is a plain node where nothing in it is a hole. -/
def ofArgs (args : List (Part Template)) : Template :=
  match plainArgs? args with
  | some as => node (.pairlist as)
  | none => pairlist args

/-- A call whose head, if it is plain, can be the head of a call. -/
def checkedCall (head : Template) (args : List (Part Template)) : Except Error Template :=
  match head with
  | node h => do
    h.requireHead []
    return apply head args
  | _ => .ok (apply head args)

/-! ## From host syntax -/

/-- The source of the name in `lhs := value`: what an unquote holds, an
identifier taken literally, or the left side itself. -/
def nameSource : Syntax → Node
  | .unquote source => source.quote
  | .ident name => if name.isEmpty then .missing else .const (.string name)
  | lhs => lhs.quote

mutual
/-- The template of the syntax at a place. -/
def ofSyntaxAt (path : Path) : Syntax → Except Error Template
  | .literal c => .ok (node (.const c))
  | .ident name => .ok (node (.symbol name))
  | .unquote source => .ok (single source.quote)
  | .splice _ => .error (.atPath .misplacedSplice path)
  | .apply head args => do
    let head ← ofSyntaxAt (path ++ [.head]) head
    let args ← partsAt path 0 args
    return apply head args
  | .list args => do
    let args ← partsAt path 0 args
    return ofArgs args

/-- The entries of an argument list, the first of which has the given index. An
unnamed splice or definition is a hole of its kind. -/
def partsAt (path : Path) (i : Nat) : List (Arg Syntax) → Except Error (List (Part Template))
  | [] => .ok []
  | ⟨none, .splice source⟩ :: rest => do
    let rest ← partsAt path (i + 1) rest
    return .splice source.quote :: rest
  | ⟨none, .apply (.ident op) [⟨none, lhs⟩, ⟨none, rhs⟩]⟩ :: rest => do
    let part ←
      if op = defineName then do
        let value ← ofSyntaxAt (path ++ [.arg i]) rhs
        pure (.define (nameSource lhs) value)
      else do
        let value ← ofSyntaxAt (path ++ [.arg i]) (.apply (.ident op) [⟨none, lhs⟩, ⟨none, rhs⟩])
        pure (.arg none value)
    let rest ← partsAt path (i + 1) rest
    return part :: rest
  | ⟨name, value⟩ :: rest => do
    let value ← ofSyntaxAt (path ++ [.arg i]) value
    let rest ← partsAt path (i + 1) rest
    return .arg name value :: rest
end

/-- The template that the syntax describes. -/
def ofSyntax (s : Syntax) : Except Error Template := ofSyntaxAt [] s

/-- The template that a node describes, calls of `!!` and `!!!` being markers. -/
def ofNode (n : Node) : Except Error Template := ofSyntax n.render

end Template

end Quotation
