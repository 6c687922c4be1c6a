import Quotation.Template.Call
import Quotation.Data.ToValue
/-!
# Builtins

Functions that get their arguments evaluated: arithmetic, comparison, lists, and
the construction of calls.
-/

namespace Quotation

/-- The error of a call with too many or too few arguments. -/
def arityError (procedure : String) (expected got : Nat) : Error :=
  .of (.mismatch (.arity procedure expected got))

/-- The error of a call with an argument of the wrong kind. -/
def argumentError (procedure : String) (v : Value) (wanted : Wanted) : Error :=
  .of (.rejected (.argument procedure v wanted))

namespace Builtin

/-- The two arguments of a function of two. -/
def pair (procedure : String) (args : List (Arg Value)) : Except Error (Value × Value) :=
  match args with
  | [a, b] => .ok (a.value, b.value)
  | _ => .error (arityError procedure 2 args.length)

def number (procedure : String) (v : Value) : Except Error Number :=
  match v.number? with
  | some n => .ok n
  | none => .error (argumentError procedure v (.type .number))

/-! ## Arithmetic -/

/-- Combines numbers from left to right. -/
def fold (procedure : String) (op : Number → Number → Option Number) (acc : Number) :
    List (Arg Value) → Except Error Number
  | [] => .ok acc
  | a :: as => do
    let n ← number procedure a.value
    match op acc n with
    | some r => fold procedure op r as
    | none => .error (.of (.rejected (.overflow procedure acc n)))

/-- Combines one number and more. -/
def foldAll (procedure : String) (op : Number → Number → Option Number) :
    List (Arg Value) → Except Error Value
  | [] => .error (arityError procedure 1 0)
  | a :: as => do
    let n ← number procedure a.value
    return .ofNumber (← fold procedure op n as)

def sum : List (Arg Value) → Except Error Value
  | [] => .ok (.ofInt 0)
  | args => foldAll "+" Number.add? args

def product : List (Arg Value) → Except Error Value
  | [] => .ok (.ofInt 1)
  | args => foldAll "*" Number.mul? args

/-- The difference, or the negation of a single number. -/
def difference : List (Arg Value) → Except Error Value
  | [a] => do
    let n ← number "-" a.value
    match n.neg? with
    | some r => return .ofNumber r
    | none => .error (argumentError "-" a.value .negatable)
  | args => foldAll "-" Number.sub? args

def quotient (args : List (Arg Value)) : Except Error Value := do
  let (a, b) ← pair "/" args
  let m ← number "/" a
  let n ← number "/" b
  match m.div? n with
  | some r => return .ofNumber r
  | none => .error (argumentError "/" b .divisor)

/-! ## Comparison -/

/-- The order of two scalars of one type. Texts are ordered by their code points,
and numbers need not be in any order. -/
def order (procedure : String) (a b : Value) : Except Error (Option Ordering) :=
  match a, b with
  | .scalar (.number m), .scalar (.number n) => .ok (m.compare? n)
  | .scalar (.string s), .scalar (.string t) => .ok (some (compare s t))
  | .scalar (.bool x), .scalar (.bool y) => .ok (some (compare x y))
  | .scalar .null, _ => .error (argumentError procedure a .comparable)
  | .scalar _, _ => .error (argumentError procedure b (.type a.type))
  | _, _ => .error (argumentError procedure a .comparable)

/-- Whether a test holds of two things in this order. -/
def holds : Comparison → Ordering → Bool
  | .equal, o => o == .eq
  | .unequal, o => o != .eq
  | .less, o => o == .lt
  | .atMost, o => o != .gt
  | .greater, o => o == .gt
  | .atLeast, o => o != .lt

/-- The name of a test. -/
def testName : Comparison → String
  | .equal => "=="
  | .unequal => "!="
  | .less => "<"
  | .atMost => "<="
  | .greater => ">"
  | .atLeast => ">="

/-- No test holds of things that are in no order. -/
def comparison (test : Comparison) (args : List (Arg Value)) : Except Error Value := do
  let (a, b) ← pair (testName test) args
  return .ofBool ((← order (testName test) a b).any (holds test))

def identical (args : List (Arg Value)) : Except Error Value := do
  let (a, b) ← pair "identical" args
  return .ofBool (a.same b)

/-! ## Text -/

/-- The text of a value that is pasted. -/
def pasted (v : Value) : Except Error String :=
  match v with
  | .scalar (.string s) => .ok s
  | .scalar .null => .error (argumentError "paste" v .scalar)
  | .scalar _ | .lang _ => .ok v.text
  | _ => .error (argumentError "paste" v .scalar)

/-- The separator and the texts to be pasted. Arguments named `sep` give the
separator, and the last one counts. -/
def pasteParts (sep : String) : List (Arg Value) → Except Error (String × List String)
  | [] => .ok (sep, [])
  | a :: as =>
    if a.isNamed "sep" then
      match a.value with
      | .scalar (.string s) => pasteParts s as
      | v => .error (argumentError "paste" v (.type .string))
    else do
      let s ← pasted a.value
      let (sep, rest) ← pasteParts sep as
      return (sep, s :: rest)

def paste (args : List (Arg Value)) : Except Error Value := do
  let (sep, parts) ← pasteParts " " args
  return .ofString (sep.intercalate parts)

/-! ## Calls -/

/-- What a value names as the head of a call. -/
def callee (v : Value) : Except Error Callee :=
  match v with
  | .scalar (.string s) => .ok (.name s)
  | .lang n => .ok (.node n)
  | _ => .error (argumentError "call2" v .callHead)

/-- The nodes of the arguments of a call. -/
def callArgs : List (Arg Value) → Except Error (List (Part Template))
  | [] => .ok []
  | a :: as =>
    match a.value.toNode? with
    | some n => return .arg a.name (.node n) :: (← callArgs as)
    | none => .error (argumentError "call2" a.value .expression)

/-- Builds a call of its first argument. There are no holes to fill, so the
environment has no bindings. -/
def makeCall (ev : Evaluator) : List (Arg Value) → Run Value
  | [] => throw (arityError "call2" 1 0)
  | head :: args => do
    let c ← Run.ofExcept (callee head.value)
    let parts ← Run.ofExcept (callArgs args)
    let env ← Run.make (·.newFrame none none)
    return .lang (← buildCall ev env {} c parts)

/-- The functions of a host that look at arguments. -/
def probe (name : String) (args : List (Arg Value)) : ArgumentProbe → Except Error Value
  | .arguments => .ok (.list args)
  | .null => .ok .null
  | .fail => .error (.of (.message name))
  | .oversized => (Data.unsigned 0xFFFFFFFFFFFFFFFF).toValue.mapError DataError.toError

end Builtin

/-- Calls a builtin. -/
def BuiltinOp.apply (ev : Evaluator) (name : String) (args : List (Arg Value)) :
    BuiltinOp → Run Value
  | .add => Run.ofExcept (Builtin.sum args)
  | .subtract => Run.ofExcept (Builtin.difference args)
  | .multiply => Run.ofExcept (Builtin.product args)
  | .divide => Run.ofExcept (Builtin.quotient args)
  | .compare test => Run.ofExcept (Builtin.comparison test args)
  | .list => return .list args
  | .identical => Run.ofExcept (Builtin.identical args)
  | .paste => Run.ofExcept (Builtin.paste args)
  | .makeCall => Builtin.makeCall ev args
  | .probe p => Run.ofExcept (Builtin.probe name args p)

end Quotation
