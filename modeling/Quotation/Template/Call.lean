import Quotation.Template.Expansion
/-!
# Calls built from parts

A call is built from a head and a list of argument templates. The head is a name
or a node, and has to be one that the checked construction of calls admits.
-/

namespace Quotation

/-- What names the function of a call. -/
inductive Callee where
  | name (s : String)
  | node (n : Node)

def Callee.head : Callee → Except Error Node
  | name s => Node.ofName? s
  | node n => .ok n

/-- Builds a call. -/
def buildCall (ev : Evaluator) (env : FrameId) (options : ExpandOptions) (c : Callee)
    (args : List (Part Template)) : Run Node := do
  let head ← Run.ofExcept c.head
  Run.record (.building head)
  let t ← Run.ofExcept (Template.checkedCall (.node head) args)
  expand ev env options t

end Quotation
