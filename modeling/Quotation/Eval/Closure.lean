import Quotation.Eval.Matching
/-!
# Calls of closures

The arguments of a call become promises and are matched with the parameters. The
body is evaluated in a new frame inside the environment of the closure. The frame
knows the context of the call: what was written for each parameter, and the tail.
-/

namespace Quotation

/-- The expression given for a parameter, the missing argument if there is none. -/
def givenExpr (exprOf : PromiseId → Node) : Option PromiseId → Node
  | some p => exprOf p
  | none => .missing

/-- The context of a call whose arguments have been matched. -/
def callContext (exprOf : PromiseId → Node) (head : Node) (args : List (Arg Node))
    (env : FrameId) (params : List Param) (m : Matching) : Context where
  head := head
  args := args
  env := env
  params := (params.zip m.slots).filterMap fun (param, slot) =>
    if param.name = tailName then none else some (param.name, givenExpr exprOf slot)
  tail := if (Matching.tailPlace? params).isSome then some m.tail else none

/-- What a parameter is bound to: the tail, the promise it was given, a promise of
its default in the new frame, or nothing. -/
def bindingOf (frame : FrameId) (tail : List (Arg PromiseId)) (param : Param) :
    Option PromiseId → Run Binding
  | given => do
    if param.name = tailName then return .tail tail
    match given, param.default with
    | some p, _ => return .promise p
    | none, some expr => return .promise (← Run.make (·.newPromise expr frame))
    | none, none => return .missing

/-- Binds the parameters in the new frame, in order. -/
def bindParams (frame : FrameId) (tail : List (Arg PromiseId)) :
    List (Param × Option PromiseId) → Run Unit
  | [] => return
  | (param, given) :: rest => do
    let b ← bindingOf frame tail param given
    Run.modifyStore (·.bind frame param.name b)
    bindParams frame tail rest

/-- Calls a closure. -/
def Closure.apply (ev : Evaluator) (c : Closure) (head : Node) (args : List (Arg Node))
    (env : FrameId) : Run Value := do
  let actuals ← delayArgs env args
  let store ← Run.store
  let exprOf := fun p => (store.promise p).expr
  match Matching.ofArgs exprOf c.params actuals with
  | .error m => Run.fail (.mismatch m)
  | .ok m =>
    let context ← Run.make (·.newContext (callContext exprOf head args env c.params m))
    let frame ← Run.make (·.newFrame (some c.env) (some context))
    bindParams frame m.tail (c.params.zip m.slots)
    Run.record (.entering c.body)
    ev c.body frame

end Quotation
