import Quotation.Template.Expansion
/-!
# Captured arguments

What the caller of a function wrote for its arguments, read off the context of
the call.
-/

namespace Quotation

/-- The context of the function call that an environment belongs to. -/
def contextOf (env : FrameId) : Run ContextId := do
  match (← Run.store).context? env with
  | some id => return id
  | none => Run.fail (.noContext none)

/-- The expression given for a parameter. -/
def captureArgument (name : String) (c : Context) : Run Node := do
  match c.parameter? name with
  | some expr =>
    Run.record (.captured expr name)
    return expr
  | none => Run.fail (.noContext (some name))

/-- The expressions in a tail, with their names. -/
def tailExprs (tail : List (Arg PromiseId)) : Run (List (Arg Node)) := do
  let store ← Run.store
  return tail.map (Arg.map fun id => (store.promise id).expr)

/-- Expressions given explicitly, with their markers filled in, and then those of
the tail of the call. -/
def captureAll (ev : Evaluator) (c : Context) (explicit : List (Arg Syntax)) :
    Run (List (Arg Node)) := do
  match c.tail with
  | none => Run.fail (.noContext (some "..."))
  | some tail =>
    let first :=
      match ← quoteExpanding ev c.env (.list explicit) with
      | .pairlist args => args
      | _ => []
    let rest ← tailExprs tail
    Run.record (.capturedAll (first.length + rest.length) rest.length)
    return first ++ rest

end Quotation
