import Quotation.Eval.Promise
/-!
# Matching arguments with parameters

Arguments are first matched by name, exactly; the remaining ones without a name
then fill the parameters before the tail that are still free, in order. What is
left over goes to the tail, if there is one, and is too much otherwise.
-/

namespace Quotation

/-- What each parameter was given, and the tail. -/
structure Matching where
  slots : List (Option PromiseId)
  tail : List (Arg PromiseId)

namespace Matching

/-- The place of the tail among the parameters. -/
def tailPlace? (params : List Param) : Option Nat := params.findIdx? (·.name == tailName)

/-- The parameter that an argument is for by its name, if it has one. -/
def slot? (params : List Param) (a : Arg PromiseId) : Option (String × Nat) :=
  match a.name with
  | some name =>
    if name = tailName then none
    else (params.findIdx? (·.name == name)).map fun i => (name, i)
  | none => none

/-- Fills the slots that arguments name. The other arguments are returned. -/
def byName (params : List Param) (slots : List (Option PromiseId)) :
    List (Arg PromiseId) → Except Mismatch (List (Option PromiseId) × List (Arg PromiseId))
  | [] => .ok (slots, [])
  | a :: as =>
    match slot? params a with
    | none => do
      let (slots, rest) ← byName params slots as
      return (slots, a :: rest)
    | some (name, i) =>
      if (slots[i]?.bind id).isSome then .error (.repeated name)
      else byName params (slots.set i (some a.value)) as

/-- Fills the first free slot among the first `n`. -/
def fillFree (p : PromiseId) : Nat → List (Option PromiseId) → Option (List (Option PromiseId))
  | 0, _ => none
  | _, [] => none
  | _ + 1, none :: slots => some (some p :: slots)
  | n + 1, some q :: slots => (fillFree p n slots).map (some q :: ·)

/-- Fills the first `n` slots with the arguments that have no name. The others are
the tail; without one, the first of them is a mismatch. -/
def byPlace (exprOf : PromiseId → Node) (n : Nat) (hasTail : Bool)
    (slots : List (Option PromiseId)) : List (Arg PromiseId) → Except Mismatch Matching
  | [] => .ok ⟨slots, []⟩
  | a :: as =>
    match if a.name.isNone then fillFree a.value n slots else none with
    | some slots => byPlace exprOf n hasTail slots as
    | none =>
      if hasTail then do
        let m ← byPlace exprOf n hasTail slots as
        return { m with tail := a :: m.tail }
      else .error (.unused (a.map exprOf))

/-- Matches arguments with parameters. -/
def ofArgs (exprOf : PromiseId → Node) (params : List Param) (args : List (Arg PromiseId)) :
    Except Mismatch Matching := do
  let (slots, rest) ← byName params (params.map fun _ => none) args
  let place := tailPlace? params
  byPlace exprOf (place.getD params.length) place.isSome slots rest

end Matching

end Quotation
