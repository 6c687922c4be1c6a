import Quotation.Template.Basic
import Quotation.State.Run
/-!
# Expansion

A template becomes a node: each hole is filled with what its source evaluates to.
A single marker takes a scalar or an expression; a splice takes a list, an
argument list or nothing at all, and gives one argument per entry; a definition
takes a name. Sources are evaluated once, in reading order, all in the same
environment, and what fills a hole is not looked through for holes. The first
failure ends the expansion and names the place.
-/

namespace Quotation

structure ExpandOptions where
  /-- how many calls and argument lists may be around a place -/
  maxDepth : Nat := 128
  /-- whether `NULL` can be spliced -/
  spliceNull : Bool := true

namespace Expand

variable (ev : Evaluator) (env : FrameId) (options : ExpandOptions)

/-- Fails below the level allowed. -/
def checkDepth (path : Path) (depth : Nat) : Run Unit :=
  if options.maxDepth < depth then Run.failAt .recursionLimit path else return

/-- The node for a single marker. -/
def unquote (source : Node) (path : Path) : Run Node := do
  Run.record (.unquoting source path)
  let value ← (ev source env).explain (.unquote .failed) path
  match value.toNode? with
  | some n => return n
  | none => Run.failAt (.unquote (.value value.type)) path

/-- The arguments for the entries of a list, the first of which has the given
index. An empty name is dropped. -/
def spliceEntries (path : Path) (j : Nat) : List (Arg Value) → Run (List (Arg Node))
  | [] => return []
  | e :: es =>
    match e.value.toNode? with
    | some n => return ⟨e.name.filter (!·.isEmpty), n⟩ :: (← spliceEntries path (j + 1) es)
    | none => Run.failAt (.splice (.value e.value.type)) (path ++ [.arg j])

/-- The arguments for a value in a splice. -/
def splicedArgs (path : Path) : Value → Run (List (Arg Node))
  | .scalar .null =>
    if options.spliceNull then return [] else Run.failAt (.splice (.value .null)) path
  | .list entries => spliceEntries path 0 entries
  | .lang (.pairlist args) => return args
  | v => Run.failAt (.splice (.value v.type)) path

/-- The arguments for a splice. -/
def splice (source : Node) (path : Path) : Run (List (Arg Node)) := do
  Run.record (.splicing source path)
  let value ← (ev source env).explain (.splice .failed) path
  splicedArgs options path value

/-- The name that a value gives to a definition. -/
def nameOf : Value → Except Refused String
  | .scalar (.string s) => if s.isEmpty then .error .emptyString else .ok s
  | .lang (.symbol name) => if name.isEmpty then .error (.value .symbol) else .ok name
  | v => .error (.value v.type)

/-- The name of a definition. -/
def definitionName (source : Node) (path : Path) : Run String := do
  let value ← (ev source env).explain (.definitionName .failed) path
  match nameOf value with
  | .ok name => return name
  | .error what => Run.failAt (.definitionName what) path

mutual
/-- The node for a template at a place, below so many calls and lists. -/
def node (path : Path) (depth : Nat) : Template → Run Node
  | .node n => do
    checkDepth options path depth
    return n
  | .single source => do
    checkDepth options path depth
    unquote ev env source path
  | .call head args => do
    checkDepth options path depth
    let h ← node (path ++ [.head]) (depth + 1) head
    if !head.isPlain then Run.ofExcept (h.requireHead (path ++ [.head]))
    let as ← argList path (depth + 1) 0 args
    return .call h as
  | .pairlist args => do
    checkDepth options path depth
    let as ← argList path (depth + 1) 0 args
    return .pairlist as

/-- The arguments for the entries of a list, the first of which has the given
index. -/
def argList (path : Path) (depth i : Nat) : List (Part Template) → Run (List (Arg Node))
  | [] => return []
  | .arg name value :: rest => do
    let n ← node (path ++ [.arg i]) depth value
    return ⟨name, n⟩ :: (← argList path depth (i + 1) rest)
  | .splice source :: rest => do
    let as ← splice ev env options source (path ++ [.arg i])
    return as ++ (← argList path depth (i + 1) rest)
  | .define nameSource value :: rest => do
    let name ← definitionName ev env nameSource (path ++ [.name i])
    let n ← node (path ++ [.arg i]) depth value
    return .named name n :: (← argList path depth (i + 1) rest)
end

end Expand

variable (ev : Evaluator) (env : FrameId) (options : ExpandOptions)

/-- The node that a template describes. -/
def expand (t : Template) : Run Node := Expand.node ev env options [] 0 t

/-- The arguments that the entries of a list describe. -/
def expandArgs (args : List (Part Template)) : Run (List (Arg Node)) :=
  Expand.argList ev env options [] 0 0 args

/-- Quotes syntax, with its markers filled in first. -/
def quoteExpanding (s : Syntax) : Run Node := do
  let t ← Run.ofExcept (Template.ofSyntax s)
  expand ev env {} t

end Quotation
