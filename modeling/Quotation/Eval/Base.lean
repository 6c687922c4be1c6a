import Quotation.State.Run
/-!
# The base environment

The names that every program can use, and the functions they stand for.
-/

namespace Quotation

def baseBuiltins : List (String × BuiltinOp) :=
  [("+", .add), ("-", .subtract), ("*", .multiply), ("/", .divide), ("==", .compare .equal),
    ("!=", .compare .unequal), ("<", .compare .less), ("<=", .compare .atMost),
    (">", .compare .greater), (">=", .compare .atLeast), ("list", .list),
    ("identical", .identical), ("paste", .paste), ("call2", .makeCall)]

def baseSpecials : List (String × SpecialOp) :=
  [("quote", .quote), ("expr", .expr), ("exprs", .exprs), ("enexpr", .enexpr),
    ("enexprs", .enexprs), ("eval", .eval), ("function", .function), ("<-", .assign),
    ("\x7b", .block), ("if", .condition)]

/-- A new builtin. -/
def newBuiltin (name : String) (op : BuiltinOp) : Run Function :=
  return .builtin (← Run.make Store.newFunction) name op

/-- A new special. -/
def newSpecial (name : String) (op : SpecialOp) : Run Function :=
  return .special (← Run.make Store.newFunction) name op

/-- Binds a name to a new function. -/
def bindNew (env : FrameId) (name : String) (make : Run Function) : Run Unit := do
  let f ← make
  Run.modifyStore (·.bind env name (.value (.function f)))

/-- A new environment with a new copy of every base function. -/
def newBase : Run FrameId := do
  let env ← Run.make (·.newFrame none none)
  baseBuiltins.forM fun (name, op) => bindNew env name (newBuiltin name op)
  baseSpecials.forM fun (name, op) => bindNew env name (newSpecial name op)
  return env

end Quotation
