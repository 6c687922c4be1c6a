import Quotation.Value
import Quotation.Text.Literal
/-!
# Frames, promises and calling contexts

An environment is a frame of bindings and the frames around it. Frames, promises
and calling contexts are shared and refer to each other, so they live in a store
and are named by their numbers there. Numbers are given out in order and are
never reused; a frame is made after the frame around it, hence has the larger
number.
-/

namespace Quotation

/-- The number of a calling context. -/
abbrev ContextId := Nat

/-- What a name can be bound to. -/
inductive Binding where
  | value (v : Value)
  /-- an argument or default, evaluated when it is first needed -/
  | promise (id : PromiseId)
  /-- a parameter without argument and default -/
  | missing
  /-- the arguments that `...` stands for -/
  | tail (args : List (Arg PromiseId))

/-- A set of bindings inside another environment, or inside none. Frames of
function calls know the context of the call. -/
structure Frame where
  parent : Option FrameId
  bindings : List (String × Binding)
  context : Option ContextId

/-- An expression to be evaluated in an environment, once. -/
structure Promise where
  expr : Node
  env : FrameId
  value : Option Value
  forcing : Bool

/-- How a function was called: the call, the environment it stands in, the
expression given for each parameter, and the arguments in the tail, if the
function takes one. A parameter that was given nothing has the missing argument. -/
structure Context where
  head : Node
  args : List (Arg Node)
  env : FrameId
  params : List (String × Node)
  tail : Option (List (Arg PromiseId))

namespace Context

def call (c : Context) : Node := .call c.head c.args

/-- The expression given for a parameter, the first one of that name. -/
def parameter? (c : Context) (name : String) : Option Node := c.params.lookup name

end Context

namespace Frame

/-- A name keeps its place when it is bound again. -/
def insert (name : String) (b : Binding) : List (String × Binding) → List (String × Binding)
  | [] => [(name, b)]
  | (n, c) :: rest => if n = name then (n, b) :: rest else (n, c) :: insert name b rest

def binding? (f : Frame) (name : String) : Option Binding := f.bindings.lookup name

/-- A binding is found under its name, and hides no other name. -/
theorem lookup_insert (name : String) (b : Binding) (bindings : List (String × Binding))
    (other : String) : (insert name b bindings).lookup other =
      if other = name then some b else bindings.lookup other := by
  induction bindings with
  | nil =>
    by_cases h : other = name
    · simp [insert, h]
    · have hb : (other == name) = false := by simp [h]
      simp [insert, List.lookup_cons, h, hb]
  | cons entry rest ih =>
    obtain ⟨n, c⟩ := entry
    by_cases hn : n = name
    · subst hn
      by_cases h : other = n
      · simp [insert, h]
      · have hb : (other == n) = false := by simp [h]
        simp [insert, List.lookup_cons, h, hb]
    · by_cases h : other = n
      · subst h
        simp [insert, hn]
      · have hb : (other == n) = false := by simp [h]
        simp [insert, List.lookup_cons, hn, hb, ih]

end Frame

structure Store where
  frames : Array Frame
  promises : Array Promise
  contexts : Array Context
  /-- how many functions there are -/
  functions : Nat

namespace Store

def empty : Store := ⟨#[], #[], #[], 0⟩

/-! ## Making things -/

def newFrame (s : Store) (parent : Option FrameId) (context : Option ContextId) :
    FrameId × Store :=
  (s.frames.size, { s with frames := s.frames.push ⟨parent, [], context⟩ })

def newPromise (s : Store) (expr : Node) (env : FrameId) : PromiseId × Store :=
  (s.promises.size, { s with promises := s.promises.push ⟨expr, env, none, false⟩ })

def newContext (s : Store) (context : Context) : ContextId × Store :=
  (s.contexts.size, { s with contexts := s.contexts.push context })

def newFunction (s : Store) : FunctionId × Store :=
  (s.functions, { s with functions := s.functions + 1 })

/-! ## Promises and contexts -/

/-- The promise of a number. A number that was not given out reads as a promise
of the missing argument, which has no value. -/
def promise (s : Store) (id : PromiseId) : Promise :=
  s.promises.getD id ⟨.missing, 0, none, false⟩

def modifyPromise (s : Store) (id : PromiseId) (f : Promise → Promise) : Store :=
  { s with promises := s.promises.modify id f }

/-- The context of a number. -/
def context (s : Store) (id : ContextId) : Context :=
  s.contexts.getD id ⟨.missing, [], 0, [], none⟩

/-! ## Frames -/

/-- Binds a name in a frame itself. -/
def bind (s : Store) (id : FrameId) (name : String) (b : Binding) : Store :=
  { s with
    frames := s.frames.modify id fun f => { f with bindings := Frame.insert name b f.bindings } }

def parent? (s : Store) (id : FrameId) : Option FrameId := s.frames[id]?.bind (·.parent)

/-- A frame and the frames around it, as far as told. -/
def chainUpTo (s : Store) : Nat → FrameId → List FrameId
  | 0, _ => []
  | n + 1, id =>
    id :: match s.parent? id with
      | some p => chainUpTo s n p
      | none => []

/-- The frames of an environment, from the inside out. Numbers fall along the
way, so there are at most as many as the number of the first one and one more. -/
def chain (s : Store) (id : FrameId) : List FrameId := s.chainUpTo (id + 1) id

/-- The binding of a name in the nearest frame that has one. -/
def get? (s : Store) (env : FrameId) (name : String) : Option Binding :=
  (s.chain env).findSome? fun id => s.frames[id]?.bind (·.binding? name)

/-- The context of the nearest frame of a function call. -/
def context? (s : Store) (env : FrameId) : Option ContextId :=
  (s.chain env).findSome? fun id => s.frames[id]?.bind (·.context)

/-- The names bound in a frame itself, in order. -/
def names (s : Store) (id : FrameId) : List String :=
  ((s.frames[id]?.map (·.bindings)).getD []).map (·.1) |>.mergeSort

/-- A frame as diagnostic text: the names bound in it, and whether there is a frame
around it. -/
def frameText (s : Store) (id : FrameId) : String :=
  let names := (s.names id).map fun name => String.ofList (Text.quote name)
  "Env \x7b bindings: [" ++ ", ".intercalate names ++ "], has_parent: " ++
    (if (s.parent? id).isSome then "true" else "false") ++ " \x7d"

end Store

end Quotation
