import Quotation.Print.Printer
/-!
# Values

What evaluation produces: scalars, quoted expressions, lists with optional names,
and functions. Functions have an identity, a number given out when they are made;
two functions are the same when their numbers are. Frames of bindings are known
here by their numbers only; `Store` holds them.
-/

namespace Quotation

/-- The number of a frame of bindings, which names the environment that begins
there. -/
abbrev FrameId := Nat

/-- The number of a promise. -/
abbrev PromiseId := Nat

/-- The number of a function. -/
abbrev FunctionId := Nat

/-- The tests on two scalars. -/
inductive Comparison where
  | equal
  | unequal
  | less
  | atMost
  | greater
  | atLeast
deriving DecidableEq

/-- Functions of a host that shows what reaches a call with evaluated arguments. -/
inductive ArgumentProbe where
  /-- returns its arguments as a list -/
  | arguments
  | null
  /-- fails with its own name as the message -/
  | fail
  /-- fails as the conversion of a natural number beyond 64 bits does -/
  | oversized
deriving DecidableEq

/-- Functions of a host that shows what reaches a call with unevaluated arguments. -/
inductive CallProbe where
  /-- returns its call -/
  | call
  /-- returns the number a session knows its environment by -/
  | environment
  /-- returns the number a session knows its calling context by -/
  | context
  /-- captures its own arguments and the tail of its calling context -/
  | captureAll
deriving DecidableEq

/-- What a builtin does with its evaluated arguments. -/
inductive BuiltinOp where
  | add
  | subtract
  | multiply
  | divide
  | compare (test : Comparison)
  | list
  | identical
  | paste
  | makeCall
  | probe (p : ArgumentProbe)
deriving DecidableEq

/-- What a special does with its call. -/
inductive SpecialOp where
  | quote
  | expr
  | exprs
  | enexpr
  | enexprs
  | eval
  | function
  | assign
  | block
  | condition
  | probe (p : CallProbe)
deriving DecidableEq

/-- A parameter of a closure and the expression it defaults to. -/
structure Param where
  name : String
  default : Option Node
deriving DecidableEq

structure Closure where
  params : List Param
  body : Node
  env : FrameId
deriving DecidableEq

inductive Function where
  | builtin (id : FunctionId) (name : String) (op : BuiltinOp)
  | special (id : FunctionId) (name : String) (op : SpecialOp)
  | closure (id : FunctionId) (closure : Closure)
deriving DecidableEq

inductive Value where
  | scalar (c : Constant)
  | lang (n : Node)
  | list (entries : List (Arg Value))
  | function (f : Function)
deriving Inhabited

/-- The types of values as messages tell them apart. -/
inductive ValueType where
  | null
  | logical
  | number
  | string
  | symbol
  | pairlist
  | language
  | list
  | function
deriving DecidableEq

def ValueType.text : ValueType → String
  | null => "NULL"
  | logical => "a logical"
  | number => "a number"
  | string => "a string"
  | symbol => "a symbol"
  | pairlist => "a pairlist"
  | language => "a language object"
  | list => "a list"
  | function => "a function"

namespace Function

/-- Whether two functions are one and the same. -/
def same : Function → Function → Bool
  | builtin a _ _, builtin b _ _ => a == b
  | special a _ _, special b _ _ => a == b
  | closure a _, closure b _ => a == b
  | _, _ => false

def text : Function → String
  | builtin _ name _ => "<builtin " ++ name ++ ">"
  | special _ name _ => "<special " ++ name ++ ">"
  | closure _ _ => "<closure>"

end Function

namespace Value

def null : Value := scalar .null

def ofBool (b : Bool) : Value := scalar (.bool b)

def ofNumber (n : Number) : Value := scalar (.number n)

def ofInt (i : Int64) : Value := ofNumber (.int i)

def ofString (s : String) : Value := scalar (.string s)

/-! ## Values and nodes -/

/-- The node that stands for the value in an expression. Lists and functions have
none. -/
def toNode? : Value → Option Node
  | scalar c => some (.const c)
  | lang n => some n
  | list _ => none
  | function _ => none

/-- The value of a node that is not evaluated: a constant is its own value. -/
def ofNode : Node → Value
  | .const c => scalar c
  | n => lang n

/-- Captured arguments as a list. -/
def ofArgs (args : List (Arg Node)) : Value := list (args.map (Arg.map ofNode))

def type : Value → ValueType
  | scalar .null => .null
  | scalar (.bool _) => .logical
  | scalar (.number _) => .number
  | scalar (.string _) => .string
  | lang (.symbol _) => .symbol
  | lang (.pairlist _) => .pairlist
  | lang _ => .language
  | list _ => .list
  | function _ => .function

/-! ## Views -/

def isNull : Value → Bool
  | scalar .null => true
  | _ => false

def bool? : Value → Option Bool
  | scalar c => c.bool?
  | _ => none

def number? : Value → Option Number
  | scalar c => c.number?
  | _ => none

def string? : Value → Option String
  | scalar c => c.string?
  | _ => none

def lang? : Value → Option Node
  | lang n => some n
  | _ => none

def list? : Value → Option (List (Arg Value))
  | list entries => some entries
  | _ => none

def function? : Value → Option Function
  | function f => some f
  | _ => none

/-- The value of the first entry of a name. -/
def entry? (entries : List (Arg Value)) (name : String) : Option Value :=
  (entries.find? (·.isNamed name)).map (·.value)

/-! ## Equality -/

mutual
/-- Equality of values: structural, and by identity on functions. -/
def same : Value → Value → Bool
  | scalar a, scalar b => a == b
  | lang a, lang b => a.identical b
  | list as, list bs => sameEntries as bs
  | function f, function g => f.same g
  | _, _ => false

def sameEntries : List (Arg Value) → List (Arg Value) → Bool
  | [], [] => true
  | a :: as, b :: bs => a.name == b.name && same a.value b.value && sameEntries as bs
  | _, _ => false
end

/-! ## Text -/

/-- Entries with commas between them, their names written by `nameText`. -/
def joinEntries (nameText : String → String) (entries : List (Arg String)) : String :=
  ", ".intercalate <| entries.map fun e =>
    match e.name with
    | some name => nameText name ++ " = " ++ e.value
    | none => e.value

mutual
/-- The value as text: scalars and expressions as printed, lists as calls of
`list`. -/
def text : Value → String
  | scalar c => (Node.const c).text
  | lang n => n.text
  | list entries =>
    "list(" ++ joinEntries (fun n => String.ofList (Text.writeName n)) (entryTexts entries) ++ ")"
  | function f => f.text

def entryTexts : List (Arg Value) → List (Arg String)
  | [] => []
  | e :: es => ⟨e.name, e.value.text⟩ :: entryTexts es
end

/-- The entries of a list in brackets, with their names as they are. -/
def bracketed (entries : List (Arg Value)) : String :=
  "[" ++ joinEntries id (entryTexts entries) ++ "]"

end Value

end Quotation
