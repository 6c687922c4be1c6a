import Quotation.Value
import Quotation.Text.Literal
/-!
# Failures

A failure is a cause, the path from the root of a template or of host syntax to
the place it is about, and the failures that led to it. Causes are typed; all
wording is here.
-/

namespace Quotation

/-! ## Paths -/

/-- One step down a tree: to the head of a call, to an argument, or to the name
of an argument. -/
inductive Step where
  | head
  | arg (index : Nat)
  | name (index : Nat)
deriving DecidableEq

/-- The steps from the root to a place. -/
abbrev Path := List Step

def Step.text : Step → String
  | head => "head"
  | arg i => "arg[" ++ toString i ++ "]"
  | name i => "name[" ++ toString i ++ "]"

def Path.text (path : Path) : String :=
  if path.isEmpty then "<root>" else ".".intercalate (path.map Step.text)

/-! ## Causes -/

/-- What a marker source gave that has no place at the marker. -/
inductive Refused where
  /-- it did not give a value at all -/
  | failed
  | emptyString
  | value (type : ValueType)
deriving DecidableEq

def Refused.text : Refused → String
  | failed => "an expression that failed to evaluate"
  | emptyString => "an empty string"
  | value type => type.text

/-- Things that have no value of their own. -/
inductive Unevaluable where
  | missing
  | tail
  | pairlist
deriving DecidableEq

def Unevaluable.text : Unevaluable → String
  | missing => NodeKind.missing.text
  | tail => "the `...' argument tail"
  | pairlist => NodeKind.pairlist.text

/-- How the arguments of a call can disagree with the function. -/
inductive Mismatch where
  /-- two arguments of the name of one parameter -/
  | repeated (name : String)
  /-- an argument for which there is no parameter -/
  | unused (arg : Arg Node)
  | arity (procedure : String) (expected got : Nat)

def Mismatch.text : Mismatch → String
  | repeated name => "formal argument `" ++ name ++ "' matched by multiple actual arguments"
  | unused ⟨some name, expr⟩ => "unused argument `" ++ name ++ " = " ++ expr.text ++ "'"
  | unused ⟨none, expr⟩ => "unused argument `" ++ expr.text ++ "'"
  | arity procedure expected got =>
    "wrong number of arguments to `" ++ procedure ++ "': expected " ++ toString expected ++
      ", got " ++ toString got

/-- What a function wanted of an argument. -/
inductive Wanted where
  | type (type : ValueType)
  | negatable
  | divisor
  | comparable
  | scalar
  | callHead
  | expression
  | parameterName
  | formals
  | name
deriving DecidableEq

def Wanted.text : Wanted → String
  | type t => t.text
  | negatable => "a negatable number"
  | divisor => "a non-zero divisor"
  | comparable => "a number, string or logical"
  | scalar => "a scalar"
  | callHead => "a string or a call"
  | expression => "a scalar or an expression"
  | parameterName => "a parameter name"
  | formals => "a formal argument list"
  | name => "a name"

/-- Why a function rejected its arguments. -/
inductive Rejection where
  | argument (procedure : String) (value : Value) (wanted : Wanted)
  | overflow (operation : String) (a b : Number)

def Rejection.text : Rejection → String
  | argument procedure value wanted =>
    "`" ++ procedure ++ "': invalid argument " ++ value.text ++ ", expected " ++ wanted.text
  | overflow operation a b =>
    "arithmetic overflow in " ++ operation ++ " of " ++ a.display ++ " and " ++ b.display

/-- The causes of failures. -/
inductive Cause where
  | invalidSymbol
  | invalidHead (kind : NodeKind)
  | misplacedSplice
  /-- outside of a function call, or no parameter of this name in it -/
  | noContext (parameter : Option String)
  | unquote (what : Refused)
  | splice (what : Refused)
  | definitionName (what : Refused)
  | recursionLimit
  | unbound (name : String)
  | notCallable (type : ValueType)
  | notEvaluable (what : Unevaluable)
  | missingArgument (name : String)
  | recursivePromise
  | mismatch (m : Mismatch)
  | rejected (r : Rejection)
  | message (text : String)

/-- The stages at which failures arise. -/
inductive Category where
  | construction
  | capture
  | expansion
  | evaluation
deriving DecidableEq

namespace Cause

def category : Cause → Category
  | invalidSymbol | invalidHead _ | misplacedSplice => .construction
  | noContext _ => .capture
  | unquote _ | splice _ | definitionName _ | recursionLimit => .expansion
  | _ => .evaluation

/-- The particulars of the cause, for causes that have any. -/
def detail? : Cause → Option String
  | invalidHead kind => some kind.text
  | noContext parameter => parameter
  | unquote what => some what.text
  | splice what => some what.text
  | definitionName what => some what.text
  | unbound name => some name
  | notCallable type => some type.text
  | notEvaluable what => some what.text
  | missingArgument name => some name
  | mismatch m => some m.text
  | rejected r => some r.text
  | message text => some text
  | invalidSymbol | misplacedSplice | recursionLimit | recursivePromise => none

def text : Cause → String
  | invalidSymbol => "invalid symbol"
  | invalidHead kind => kind.text ++ " cannot be the head of a call"
  | misplacedSplice => "unquote-splice outside of an argument position"
  | noContext none => "not inside a function call"
  | noContext (some name) => "`" ++ name ++ "' is not a parameter of the calling function"
  | unquote what => "cannot unquote " ++ what.text
  | splice what => "cannot splice " ++ what.text
  | definitionName what => "definition name must be a non-empty string, got " ++ what.text
  | recursionLimit => "recursion limit exceeded"
  | unbound name => "unbound identifier `" ++ name ++ "'"
  | notCallable type => "non-applicable object in operator position: " ++ type.text
  | notEvaluable what => what.text ++ " cannot be evaluated"
  | missingArgument name => "argument `" ++ name ++ "' is missing, with no default"
  | recursivePromise =>
    "promise already under evaluation: recursive default argument reference?"
  | mismatch m => "argument mismatch: " ++ m.text
  | rejected r => "invalid argument: " ++ r.text
  | message text => text

end Cause

/-! ## Failures -/

/-- A cause and the place it is about. -/
structure Fault where
  cause : Cause
  path : Path

def Fault.text (f : Fault) : String :=
  if f.path.isEmpty then f.cause.text else f.cause.text ++ " at " ++ f.path.text

/-- A failure: what went wrong, and below it what led to that. -/
structure Error where
  fault : Fault
  reasons : List Fault

namespace Error

/-- A failure at the root. -/
def of (cause : Cause) : Error := ⟨⟨cause, []⟩, []⟩

/-- A failure at a place. -/
def atPath (cause : Cause) (path : Path) : Error := ⟨⟨cause, path⟩, []⟩

/-- A failure at a place which another failure led to. -/
def causedBy (cause : Cause) (path : Path) (reason : Error) : Error :=
  ⟨⟨cause, path⟩, reason.fault :: reason.reasons⟩

def cause (e : Error) : Cause := e.fault.cause

def path (e : Error) : Path := e.fault.path

/-- The failure that led to this one. -/
def reason? (e : Error) : Option Error :=
  match e.reasons with
  | [] => none
  | f :: fs => some ⟨f, fs⟩

/-- The failure and all that led to it, in one line. -/
def text (e : Error) : String := ": ".intercalate ((e.fault :: e.reasons).map Fault.text)

/-- The failure as diagnostic text: the cause in quotes, and the path. -/
def diagnostic (e : Error) : String :=
  "Error(" ++ String.ofList (Text.quote e.cause.text) ++
    (if e.path.isEmpty then "" else ", path: " ++ e.path.text) ++ ")"

end Error

end Quotation
