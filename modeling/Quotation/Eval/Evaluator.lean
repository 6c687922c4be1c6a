import Quotation.Eval.Closure
import Quotation.Eval.Special
/-!
# Evaluation

A constant is its own value, a symbol is looked up, and a call calls the function
that its head evaluates to. What happens to the arguments is up to the function:
builtins get values, specials the call itself, closures a promise for each.

`eval` takes the depth to which evaluations may be nested, and is cut off below.
-/

namespace Quotation

/-- Calls a function with arguments as they are written in an environment. -/
def Function.apply (ev : Evaluator) (head : Node) (args : List (Arg Node)) (env : FrameId) :
    Function → Run Value
  | .builtin _ name op => do op.apply ev name (← evalArgs ev env args)
  | .special _ _ op => op.apply ev env head args
  | .closure _ c => c.apply ev head args env

/-- Evaluates one level, and leaves what is below to an evaluator. -/
def evalStep (ev : Evaluator) (n : Node) (env : FrameId) : Run Value :=
  match n with
  | .const c => return .scalar c
  | .symbol name =>
    if name.isEmpty then Run.fail (.notEvaluable .missing) else lookup ev env name
  | .call head args => do
    match ← ev head env with
    | .function f =>
      Run.record (.calling head args.length)
      f.apply ev head args env
    | v => Run.fail (.notCallable v.type)
  | .pairlist _ => Run.fail (.notEvaluable .pairlist)

/-- Evaluates to a given depth. -/
def eval : Nat → Evaluator
  | 0 => fun _ _ => Run.cutOff
  | n + 1 => evalStep (eval n)

/-- The depth that sessions evaluate to. -/
def sessionDepth : Nat := 100000

end Quotation
