import Quotation.State.Run
/-!
# Promises, names and arguments

A promise is evaluated when its value is first asked for, and keeps the value. It
is marked while that goes on, so a promise that needs itself fails. Names are
looked up through promises, and argument lists are evaluated, or turned into
promises, with the entries of the tail in place of `...`.

The evaluator is a parameter of all of this.
-/

namespace Quotation

/-- The name of the argument tail. -/
def tailName : String := "..."

/-- Whether an argument stands for the tail: it is `...`, and has no name. -/
def Arg.isTail (a : Arg Node) : Bool := a.name.isNone && a.value == .symbol tailName

variable (ev : Evaluator)

/-- The value of a promise. A failure leaves the promise as it was before. -/
def force (id : PromiseId) : Run Value := do
  let p := (← Run.store).promise id
  match p.value with
  | some v => return v
  | none =>
    if p.forcing then Run.fail .recursivePromise
    else
      Run.modifyStore (·.modifyPromise id fun p => { p with forcing := true })
      let result ← Run.attempt (ev p.expr p.env)
      Run.modifyStore (·.modifyPromise id fun p => { p with forcing := false })
      let v ← Run.ofExcept result
      Run.modifyStore (·.modifyPromise id fun p => { p with value := some v })
      return v

/-- The value of a name in an environment. -/
def lookup (env : FrameId) (name : String) : Run Value := do
  match (← Run.store).get? env name with
  | some (.value v) => return v
  | some (.promise id) => force ev id
  | some .missing => Run.fail (.missingArgument name)
  | some (.tail _) => Run.fail (.notEvaluable .tail)
  | none => Run.fail (.unbound name)

/-- The tail that `...` stands for in an environment. -/
def tailOf (env : FrameId) : Run (List (Arg PromiseId)) := do
  match (← Run.store).get? env tailName with
  | some (.tail args) => return args
  | _ => Run.fail (.unbound tailName)

/-- The values of the promises of a tail, in order. -/
def forceAll : List (Arg PromiseId) → Run (List (Arg Value))
  | [] => return []
  | a :: as => return ⟨a.name, ← force ev a.value⟩ :: (← forceAll as)

/-- The values of arguments, in order. -/
def evalArgs (env : FrameId) : List (Arg Node) → Run (List (Arg Value))
  | [] => return []
  | a :: as => do
    let here ←
      if a.isTail then forceAll ev (← tailOf env)
      else pure [⟨a.name, ← ev a.value env⟩]
    return here ++ (← evalArgs env as)

/-- Promises of the arguments. Those of the tail are passed on as they are. -/
def delayArgs (env : FrameId) : List (Arg Node) → Run (List (Arg PromiseId))
  | [] => return []
  | a :: as => do
    let here ←
      if a.isTail then tailOf env
      else pure [⟨a.name, ← Run.make (·.newPromise a.value env)⟩]
    return here ++ (← delayArgs env as)

end Quotation
