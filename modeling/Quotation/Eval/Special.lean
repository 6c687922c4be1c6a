import Quotation.Eval.Capture
import Quotation.Eval.Builtin
import Quotation.Eval.Promise
/-!
# Specials

Functions that get their call as it is written: quoting and capturing, evaluation
of quoted expressions, functions, assignment, blocks and conditions. Each is given
the call and the environment it stands in.
-/

namespace Quotation

/-- Arguments of a call as host syntax. -/
def renderedArgs (args : List (Arg Node)) : List (Arg Syntax) := args.map (Arg.map Node.render)

namespace Special

variable (ev : Evaluator) (env : FrameId)

/-- The argument of a special that takes one. -/
def single (procedure : String) (args : List (Arg Node)) : Except Error Node :=
  match args with
  | [a] => .ok a.value
  | _ => .error (arityError procedure 1 args.length)

/-! ## Quoting -/

def quote (args : List (Arg Node)) : Except Error Value := do
  return .ofNode (← single "quote" args)

def expr (args : List (Arg Node)) : Run Value := do
  let n ← Run.ofExcept (single "expr" args)
  return .ofNode (← quoteExpanding ev env n.render)

/-- The expressions of one argument: those of the tail for `...`, else the argument
with its markers filled in. -/
def exprsOf (a : Arg Node) : Run (List (Arg Node)) := do
  if a.isTail then tailExprs (← tailOf env)
  else
    match ← quoteExpanding ev env (.list [⟨a.name, a.value.render⟩]) with
    | .pairlist args => return args
    | _ => return []

def exprsList : List (Arg Node) → Run (List (Arg Node))
  | [] => return []
  | a :: as => return (← exprsOf ev env a) ++ (← exprsList as)

def exprs (args : List (Arg Node)) : Run Value :=
  return .ofArgs (← exprsList ev env args)

/-! ## Capturing -/

/-- The name of a parameter, given as a symbol. -/
def parameterName (n : Node) : Except Error String :=
  match n with
  | .symbol name =>
    if name.isEmpty then .error (argumentError "enexpr" (.ofNode n) .parameterName) else .ok name
  | _ => .error (argumentError "enexpr" (.ofNode n) .parameterName)

def enexpr (args : List (Arg Node)) : Run Value := do
  let n ← Run.ofExcept (single "enexpr" args)
  let name ← Run.ofExcept (parameterName n)
  let id ← contextOf env
  return .ofNode (← captureArgument name ((← Run.store).context id))

/-- The parameters of a call that were given something, as named syntax. -/
def givenParams (c : Context) : List (Arg Syntax) :=
  c.params.filterMap fun (name, _) =>
    match c.parameter? name with
    | some expr => if expr.isMissing then none else some (.named name expr.render)
    | none => none

def enexprs (args : List (Arg Node)) : Run Value := do
  match args with
  | [] =>
    let id ← contextOf env
    let c := (← Run.store).context id
    return .ofArgs (← captureAll ev c (givenParams c))
  | _ => throw (arityError "enexprs" 0 args.length)

/-! ## Evaluation -/

/-- Evaluates its argument, and if the value is an expression evaluates that. -/
def eval (args : List (Arg Node)) : Run Value := do
  let n ← Run.ofExcept (single "eval" args)
  match ← ev n env with
  | .lang expr => ev expr env
  | v => return v

/-- A parameter as it is written: a name with a default, a name with nothing, or a
symbol. -/
def param (formal : Arg Node) : Except Error Param :=
  match formal.name, formal.value with
  | some name, value => .ok ⟨name, if value.isMissing then none else some value⟩
  | none, .symbol name =>
    if name.isEmpty then .error (argumentError "function" (.ofNode (.symbol name)) .parameterName)
    else .ok ⟨name, none⟩
  | none, value => .error (argumentError "function" (.ofNode value) .parameterName)

/-- Makes a closure in the environment of the call. -/
def function (args : List (Arg Node)) : Run Value := do
  match args with
  | [formals, body] =>
    match formals.value with
    | .pairlist formals =>
      let params ← Run.ofExcept (formals.mapM param)
      let id ← Run.make Store.newFunction
      return .function (.closure id ⟨params, body.value, env⟩)
    | other => throw (argumentError "function" (.ofNode other) .formals)
  | _ => throw (arityError "function" 2 args.length)

/-- The name that is assigned to: a symbol or a string. -/
def target (n : Node) : Except Error String :=
  match n with
  | .symbol name =>
    if name.isEmpty then .error (argumentError "<-" (.ofNode n) .name) else .ok name
  | .const (.string name) =>
    if name.isEmpty then .error (argumentError "<-" (.ofNode n) .name) else .ok name
  | _ => .error (argumentError "<-" (.ofNode n) .name)

/-- Binds a name in the frame of the call. -/
def assign (args : List (Arg Node)) : Run Value := do
  match args with
  | [lhs, rhs] =>
    let name ← Run.ofExcept (target lhs.value)
    let v ← ev rhs.value env
    Run.modifyStore (·.bind env name (.value v))
    return v
  | _ => throw (arityError "<-" 2 args.length)

/-- Evaluates all arguments and returns the last value. -/
def block (last : Value) : List (Arg Node) → Run Value
  | [] => return last
  | a :: as => do
    let v ← ev a.value env
    block v as

/-- Evaluates the first argument and, as it says, the second or the third. -/
def condition (args : List (Arg Node)) : Run Value := do
  match args with
  | [test, yes] => branch test yes none
  | [test, yes, no] => branch test yes (some no)
  | _ => throw (arityError "if" 3 args.length)
where
  branch (test yes : Arg Node) (no : Option (Arg Node)) : Run Value := do
    let v ← ev test.value env
    match v.bool? with
    | none => throw (argumentError "if" v (.type .logical))
    | some true => ev yes.value env
    | some false =>
      match no with
      | some no => ev no.value env
      | none => return .null

/-- The functions of a host that look at calls. -/
def probe (head : Node) (args : List (Arg Node)) : CallProbe → Run Value
  | .call => return .lang (.call head args)
  | .environment => return .ofInt (← Run.knownEnv env).toInt64
  | .context => do
    let id ← contextOf env
    return .ofInt (← Run.knownContext id).toInt64
  | .captureAll => do
    let id ← contextOf env
    let captured ← captureAll ev ((← Run.store).context id) (renderedArgs args)
    return .list (captured.map (Arg.map .lang))

end Special

/-- Calls a special. -/
def SpecialOp.apply (ev : Evaluator) (env : FrameId) (head : Node) (args : List (Arg Node)) :
    SpecialOp → Run Value
  | .quote => Run.ofExcept (Special.quote args)
  | .expr => Special.expr ev env args
  | .exprs => Special.exprs ev env args
  | .enexpr => Special.enexpr env args
  | .enexprs => Special.enexprs ev env args
  | .eval => Special.eval ev env args
  | .function => Special.function env args
  | .assign => Special.assign ev env args
  | .block => Special.block ev env .null args
  | .condition => Special.condition ev env args
  | .probe p => Special.probe ev env head args p

end Quotation
