import Quotation.Eval.Evaluator
/-!
# What evaluation does with its evaluator

Evaluation is built from a few actions on the state and from the evaluations below
it. A `Congruence` relates runs that are built alike: it holds between the actions,
and it is kept when runs are put together. Each function then relates its runs with
two evaluators as soon as the evaluators are related, which is said once for every
function here; a property of all evaluations is a congruence and a proof of its
fields. Forcing promises is left open, as a parameter beside the evaluator. A
`PartialCongruence` leaves open what binds names as well: calls of closures and assignments.
-/

namespace Quotation

/-! ## Forcing as a parameter -/

section
variable (ev : Evaluator) (force : PromiseId → Run Value)

/-- The value of a name, with another way to force promises. -/
def lookupWith (env : FrameId) (name : String) : Run Value := do
  match (← Run.store).get? env name with
  | some (.value v) => return v
  | some (.promise id) => force id
  | some .missing => Run.fail (.missingArgument name)
  | some (.tail _) => Run.fail (.notEvaluable .tail)
  | none => Run.fail (.unbound name)

def forceAllWith : List (Arg PromiseId) → Run (List (Arg Value))
  | [] => return []
  | a :: as => return ⟨a.name, ← force a.value⟩ :: (← forceAllWith as)

def evalArgsWith (env : FrameId) : List (Arg Node) → Run (List (Arg Value))
  | [] => return []
  | a :: as => do
    let here ←
      if a.isTail then forceAllWith force (← tailOf env)
      else pure [⟨a.name, ← ev a.value env⟩]
    return here ++ (← evalArgsWith env as)

def Function.applyWith (head : Node) (args : List (Arg Node)) (env : FrameId) : Function → Run Value
  | .builtin _ name op => do op.apply ev name (← evalArgsWith ev force env args)
  | .special _ _ op => op.apply ev env head args
  | .closure _ c => c.apply ev head args env

/-- One level of evaluation, with another way to force promises. -/
def evalStepWith (n : Node) (env : FrameId) : Run Value :=
  match n with
  | .const c => return .scalar c
  | .symbol name =>
    if name.isEmpty then Run.fail (.notEvaluable .missing) else lookupWith force env name
  | .call head args => do
    match ← ev head env with
    | .function f =>
      Run.record (.calling head args.length)
      f.applyWith ev force head args env
    | v => Run.fail (.notCallable v.type)
  | .pairlist _ => Run.fail (.notEvaluable .pairlist)

end

section
variable (ev : Evaluator)

theorem forceAll_eq_with (args : List (Arg PromiseId)) : forceAll ev args = forceAllWith (force ev) args := by
  induction args with
  | nil => rfl
  | cons a as ih => rw [forceAll, forceAllWith, ih]

theorem evalArgs_eq_with (env : FrameId) (args : List (Arg Node)) :
    evalArgs ev env args = evalArgsWith ev (force ev) env args := by
  induction args with
  | nil => rfl
  | cons a as ih =>
    rw [evalArgs, evalArgsWith, ih]
    simp only [forceAll_eq_with]

theorem apply_eq_with (head : Node) (args : List (Arg Node)) (env : FrameId) (f : Function) :
    f.apply ev head args env = f.applyWith ev (force ev) head args env := by
  cases f with
  | builtin id name op => rw [Function.apply, Function.applyWith, evalArgs_eq_with]
  | special id name op => rfl
  | closure id c => rfl

theorem evalStep_eq_with (n : Node) (env : FrameId) : evalStep ev n env = evalStepWith ev (force ev) n env := by
  cases n with
  | call head args =>
    refine bind_congr fun v => ?_
    cases v with
    | function f =>
      exact congrArg (fun x => Run.record (.calling head args.length) >>= fun _ => x)
        (apply_eq_with ev head args env f)
    | scalar c => rfl
    | lang n => rfl
    | list entries => rfl
  | const c => rfl
  | symbol name => rfl
  | pairlist args => rfl

end

section
variable (ev : Evaluator) (force : PromiseId → Run Value)
  (apply : Node → List (Arg Node) → FrameId → Function → Run Value)

/-- One level of evaluation, with another way to call functions as well. -/
def evalStepBy (n : Node) (env : FrameId) : Run Value :=
  match n with
  | .const c => return .scalar c
  | .symbol name =>
    if name.isEmpty then Run.fail (.notEvaluable .missing) else lookupWith force env name
  | .call head args => do
    match ← ev head env with
    | .function f =>
      Run.record (.calling head args.length)
      apply head args env f
    | v => Run.fail (.notCallable v.type)
  | .pairlist _ => Run.fail (.notEvaluable .pairlist)

theorem evalStepWith_eq_by (n : Node) (env : FrameId) : evalStepWith ev force n env =
    evalStepBy ev force (fun head args env f => f.applyWith ev force head args env) n env := by
  cases n <;> rfl

end

/-- A relation of runs that holds between the actions of evaluation that bind no names, and is
kept by putting runs together. -/
structure PartialCongruence where
  rel {α : Type} : Run α → Run α → Prop
  pure {α : Type} (a : α) : rel (pure a) (pure a)
  throw {α : Type} (e : Error) : rel (throw e : Run α) (throw e)
  bind {α β : Type} {x y : Run α} {f g : α → Run β} : rel x y → (∀ a, rel (f a) (g a)) → rel (x >>= f) (y >>= g)
  explain {α : Type} {x y : Run α} (cause : Cause) (path : Path) :
    rel x y → rel (x.explain cause path) (y.explain cause path)
  store : rel Run.store Run.store
  record (e : Event) : rel (Run.record e) (Run.record e)
  knownEnv (id : FrameId) : rel (Run.knownEnv id) (Run.knownEnv id)
  knownContext (id : ContextId) : rel (Run.knownContext id) (Run.knownContext id)
  newPromise (expr : Node) (env : FrameId) : rel (Run.make (·.newPromise expr env)) (Run.make (·.newPromise expr env))
  newFunction : rel (Run.make Store.newFunction) (Run.make Store.newFunction)
  /-- makes an environment without bindings -/
  newRoot : rel (Run.make (·.newFrame none none)) (Run.make (·.newFrame none none))

namespace PartialCongruence

variable (C : PartialCongruence)

/-! ## Runs without an evaluator -/

theorem ofExcept {α : Type} (x : Except Error α) : C.rel (Run.ofExcept x) (Run.ofExcept x) := by
  cases x with
  | ok a => exact C.pure a
  | error e => exact C.throw e

theorem tailOf (env : FrameId) : C.rel (tailOf env) (tailOf env) := by
  refine C.bind C.store fun store => ?_
  split
  · exact C.pure _
  · exact C.throw _

theorem contextOf (env : FrameId) : C.rel (contextOf env) (contextOf env) := by
  refine C.bind C.store fun store => ?_
  split
  · exact C.pure _
  · exact C.throw _

theorem tailExprs (tail : List (Arg PromiseId)) : C.rel (tailExprs tail) (tailExprs tail) :=
  C.bind C.store fun _ => C.pure _

theorem captureArgument (name : String) (c : Context) : C.rel (captureArgument name c) (captureArgument name c) := by
  unfold Quotation.captureArgument
  split
  · exact C.bind (C.record _) fun _ => C.pure _
  · exact C.throw _

theorem delayArgs (env : FrameId) (args : List (Arg Node)) : C.rel (delayArgs env args) (delayArgs env args) := by
  induction args with
  | nil => exact C.pure _
  | cons a as ih =>
    have hrest (here : List (Arg PromiseId)) :
        C.rel (do return here ++ (← Quotation.delayArgs env as)) (do return here ++ (← Quotation.delayArgs env as)) :=
      C.bind ih fun _ => C.pure _
    unfold Quotation.delayArgs
    dsimp only
    split
    · exact C.bind (C.tailOf env) hrest
    · exact C.bind (C.newPromise _ _) fun id => C.bind (C.pure _) hrest

theorem spliceEntries (path : Path) (j : Nat) (entries : List (Arg Value)) :
    C.rel (Expand.spliceEntries path j entries) (Expand.spliceEntries path j entries) := by
  induction entries generalizing j with
  | nil => exact C.pure _
  | cons e es ih =>
    unfold Expand.spliceEntries
    split
    · exact C.bind (ih _) fun _ => C.pure _
    · exact C.throw _

theorem splicedArgs (options : ExpandOptions) (path : Path) (v : Value) :
    C.rel (Expand.splicedArgs options path v) (Expand.splicedArgs options path v) := by
  unfold Expand.splicedArgs
  split
  · split
    · exact C.pure _
    · exact C.throw _
  · exact C.spliceEntries path 0 _
  · exact C.pure _
  · exact C.throw _

theorem checkDepth (options : ExpandOptions) (path : Path) (depth : Nat) :
    C.rel (Expand.checkDepth options path depth) (Expand.checkDepth options path depth) := by
  unfold Expand.checkDepth
  split
  · exact C.throw _
  · exact C.pure _

/-! ## Expansion -/

variable {ev ev' : Evaluator} (hev : ∀ n env, C.rel (ev n env) (ev' n env)) (env : FrameId) (options : ExpandOptions)
include hev

theorem unquote (source : Node) (path : Path) :
    C.rel (Expand.unquote ev env source path) (Expand.unquote ev' env source path) := by
  refine C.bind (C.record _) fun _ => C.bind (C.explain _ _ (hev source env)) fun v => ?_
  split
  · exact C.pure _
  · exact C.throw _

theorem splice (source : Node) (path : Path) :
    C.rel (Expand.splice ev env options source path) (Expand.splice ev' env options source path) :=
  C.bind (C.record _) fun _ => C.bind (C.explain _ _ (hev source env)) fun v => C.splicedArgs options path v

theorem definitionName (source : Node) (path : Path) :
    C.rel (Expand.definitionName ev env source path) (Expand.definitionName ev' env source path) := by
  refine C.bind (C.explain _ _ (hev source env)) fun v => ?_
  split
  · exact C.pure _
  · exact C.throw _

mutual
theorem node (path : Path) (depth : Nat) : ∀ t : Template,
    C.rel (Expand.node ev env options path depth t) (Expand.node ev' env options path depth t)
  | .node n => C.bind (C.checkDepth _ _ _) fun _ => C.pure n
  | .single source => C.bind (C.checkDepth _ _ _) fun _ => C.unquote hev env source path
  | .call head args => by
    refine C.bind (C.checkDepth _ _ _) fun _ => C.bind (node _ _ head) fun h => ?_
    have hrest : C.rel (do return Node.call h (← Expand.argList ev env options path (depth + 1) 0 args))
        (do return Node.call h (← Expand.argList ev' env options path (depth + 1) 0 args)) :=
      C.bind (argList path (depth + 1) 0 args) fun _ => C.pure _
    dsimp only
    split
    · exact C.bind (C.ofExcept _) fun _ => hrest
    · exact hrest
  | .pairlist args =>
    C.bind (C.checkDepth _ _ _) fun _ => C.bind (argList path (depth + 1) 0 args) fun _ => C.pure _

theorem argList (path : Path) (depth i : Nat) : ∀ args : List (Part Template),
    C.rel (Expand.argList ev env options path depth i args) (Expand.argList ev' env options path depth i args)
  | [] => C.pure _
  | .arg _ value :: rest =>
    C.bind (node _ _ value) fun _ => C.bind (argList _ _ _ rest) fun _ => C.pure _
  | .splice source :: rest =>
    C.bind (C.splice hev env options source _) fun _ => C.bind (argList _ _ _ rest) fun _ => C.pure _
  | .define nameSource value :: rest =>
    C.bind (C.definitionName hev env nameSource _) fun _ =>
      C.bind (node _ _ value) fun _ => C.bind (argList _ _ _ rest) fun _ => C.pure _
end

theorem quoteExpanding (x : Syntax) : C.rel (quoteExpanding ev env x) (quoteExpanding ev' env x) :=
  C.bind (C.ofExcept _) fun t => C.node hev env {} [] 0 t

theorem buildCall (c : Callee) (args : List (Part Template)) :
    C.rel (buildCall ev env options c args) (buildCall ev' env options c args) :=
  C.bind (C.ofExcept _) fun _ => C.bind (C.record _) fun _ => C.bind (C.ofExcept _) fun t =>
    C.node hev env options [] 0 t

theorem captureAll (c : Context) (explicit : List (Arg Syntax)) :
    C.rel (captureAll ev c explicit) (captureAll ev' c explicit) := by
  unfold Quotation.captureAll
  split
  · exact C.throw _
  · exact C.bind (C.quoteExpanding hev _ _) fun n => C.bind (C.tailExprs _) fun rest =>
      C.bind (C.record _) fun _ => C.pure _

/-! ## Functions -/

theorem makeCall (args : List (Arg Value)) : C.rel (Builtin.makeCall ev args) (Builtin.makeCall ev' args) := by
  cases args with
  | nil => exact C.throw _
  | cons head args =>
    exact C.bind (C.ofExcept _) fun c => C.bind (C.ofExcept _) fun parts => C.bind C.newRoot fun env =>
      C.bind (C.buildCall hev env {} c parts) fun _ => C.pure _

theorem builtin (name : String) (args : List (Arg Value)) (op : BuiltinOp) :
    C.rel (op.apply ev name args) (op.apply ev' name args) := by
  cases op with
  | makeCall => exact C.makeCall hev args
  | list => exact C.pure _
  | _ => exact C.ofExcept _

theorem expr (args : List (Arg Node)) : C.rel (Special.expr ev env args) (Special.expr ev' env args) :=
  C.bind (C.ofExcept _) fun _ => C.bind (C.quoteExpanding hev env _) fun _ => C.pure _

theorem exprsOf (a : Arg Node) : C.rel (Special.exprsOf ev env a) (Special.exprsOf ev' env a) := by
  unfold Special.exprsOf
  split
  · exact C.bind (C.tailOf env) fun tail => C.tailExprs tail
  · refine C.bind (C.quoteExpanding hev env _) fun n => ?_
    split
    · exact C.pure _
    · exact C.pure _

theorem exprs (args : List (Arg Node)) : C.rel (Special.exprs ev env args) (Special.exprs ev' env args) := by
  refine C.bind ?_ fun _ => C.pure _
  induction args with
  | nil => exact C.pure _
  | cons a as ih => exact C.bind (C.exprsOf hev env a) fun here => C.bind ih fun _ => C.pure _

theorem enexprs (args : List (Arg Node)) : C.rel (Special.enexprs ev env args) (Special.enexprs ev' env args) := by
  cases args with
  | nil =>
    exact C.bind (C.contextOf env) fun id => C.bind C.store fun store =>
      C.bind (C.captureAll hev _ _) fun _ => C.pure _
  | cons a as => exact C.throw _

theorem evalSpecial (args : List (Arg Node)) : C.rel (Special.eval ev env args) (Special.eval ev' env args) := by
  refine C.bind (C.ofExcept _) fun n => C.bind (hev n env) fun v => ?_
  split
  · exact hev _ env
  · exact C.pure _

theorem block (last : Value) (args : List (Arg Node)) :
    C.rel (Special.block ev env last args) (Special.block ev' env last args) := by
  induction args generalizing last with
  | nil => exact C.pure _
  | cons a as ih => exact C.bind (hev _ env) fun v => ih v

theorem branch (test yes : Arg Node) (no : Option (Arg Node)) :
    C.rel (Special.condition.branch ev env test yes no) (Special.condition.branch ev' env test yes no) := by
  refine C.bind (hev _ env) fun v => ?_
  split
  · exact C.throw _
  · exact hev _ env
  · split
    · exact hev _ env
    · exact C.pure _

theorem condition (args : List (Arg Node)) :
    C.rel (Special.condition ev env args) (Special.condition ev' env args) := by
  unfold Special.condition
  split
  · exact C.branch hev env _ _ _
  · exact C.branch hev env _ _ _
  · exact C.throw _

theorem probe (head : Node) (args : List (Arg Node)) (p : CallProbe) :
    C.rel (Special.probe ev env head args p) (Special.probe ev' env head args p) := by
  cases p with
  | call => exact C.pure _
  | environment => exact C.bind (C.knownEnv env) fun _ => C.pure _
  | context => exact C.bind (C.contextOf env) fun id => C.bind (C.knownContext id) fun _ => C.pure _
  | captureAll =>
    exact C.bind (C.contextOf env) fun id => C.bind C.store fun store =>
      C.bind (C.captureAll hev _ _) fun _ => C.pure _

omit hev in
theorem enexpr (args : List (Arg Node)) : C.rel (Special.enexpr env args) (Special.enexpr env args) :=
  C.bind (C.ofExcept _) fun _ => C.bind (C.ofExcept _) fun _ => C.bind (C.contextOf env) fun _ =>
    C.bind C.store fun _ => C.bind (C.captureArgument _ _) fun _ => C.pure _

omit hev in
theorem function (args : List (Arg Node)) : C.rel (Special.function env args) (Special.function env args) := by
  unfold Special.function
  split
  · split
    · exact C.bind (C.ofExcept _) fun params => C.bind C.newFunction fun _ => C.pure _
    · exact C.throw _
  · exact C.throw _

theorem special (head : Node) (args : List (Arg Node)) (op : SpecialOp) :
    op ≠ .assign → C.rel (op.apply ev env head args) (op.apply ev' env head args) := by
  intro hop
  cases op with
  | quote => exact C.ofExcept _
  | expr => exact C.expr hev env args
  | exprs => exact C.exprs hev env args
  | enexpr => exact C.enexpr env args
  | enexprs => exact C.enexprs hev env args
  | eval => exact C.evalSpecial hev env args
  | function => exact C.function env args
  | assign => exact absurd rfl hop
  | block => exact C.block hev env _ args
  | condition => exact C.condition hev env args
  | probe p => exact C.probe hev env head args p

/-! ## Evaluation -/

variable {force force' : PromiseId → Run Value} (hforce : ∀ id, C.rel (force id) (force' id))
include hforce

omit hev in
theorem lookup (name : String) : C.rel (lookupWith force env name) (lookupWith force' env name) := by
  refine C.bind C.store fun store => ?_
  split
  · exact C.pure _
  · exact hforce _
  · exact C.throw _
  · exact C.throw _
  · exact C.throw _

omit hev in
theorem forceAll (args : List (Arg PromiseId)) : C.rel (forceAllWith force args) (forceAllWith force' args) := by
  induction args with
  | nil => exact C.pure _
  | cons a as ih => exact C.bind (hforce _) fun v => C.bind ih fun _ => C.pure _

theorem evalArgs (args : List (Arg Node)) :
    C.rel (evalArgsWith ev force env args) (evalArgsWith ev' force' env args) := by
  induction args with
  | nil => exact C.pure _
  | cons a as ih =>
    have hrest (here : List (Arg Value)) : C.rel (do return here ++ (← evalArgsWith ev force env as))
        (do return here ++ (← evalArgsWith ev' force' env as)) :=
      C.bind ih fun _ => C.pure _
    unfold evalArgsWith
    dsimp only
    split
    · exact C.bind (C.tailOf env) fun tail => C.bind (C.forceAll hforce tail) hrest
    · exact C.bind (hev _ env) fun v => C.bind (C.pure _) hrest

/-- One level of evaluation relates what is below it, if calls of functions do. -/
theorem evalStepBy {apply apply' : Node → List (Arg Node) → FrameId → Function → Run Value}
    (happly : ∀ head args f, C.rel (apply head args env f) (apply' head args env f)) (n : Node) :
    C.rel (evalStepBy ev force apply n env) (evalStepBy ev' force' apply' n env) := by
  cases n with
  | const c => exact C.pure _
  | symbol name =>
    unfold Quotation.evalStepBy
    dsimp only
    split
    · exact C.throw _
    · exact C.lookup env hforce name
  | call head args =>
    refine C.bind (hev head env) fun v => ?_
    split
    · exact C.bind (C.record _) fun _ => happly head args _
    · exact C.throw _
  | pairlist args => exact C.throw _

end PartialCongruence

/-! ## Calls of closures and assignments -/

/-- Makes the frame of a function call, and binds the parameters in it. -/
def enterFrame (parent : FrameId) (context : ContextId) (tail : List (Arg PromiseId))
    (slots : List (Param × Option PromiseId)) : Run FrameId := do
  let frame ← Run.make (·.newFrame (some parent) (some context))
  bindParams frame tail slots
  return frame

/-- A relation of runs that holds between all actions of evaluation and is kept by putting
runs together. -/
structure Congruence extends PartialCongruence where
  newContext (c : Context) : rel (Run.make (·.newContext c)) (Run.make (·.newContext c))
  enterFrame (parent : FrameId) (context : ContextId) (tail : List (Arg PromiseId))
    (slots : List (Param × Option PromiseId)) :
    rel (enterFrame parent context tail slots) (enterFrame parent context tail slots)
  assign (env : FrameId) (name : String) (v : Value) :
    rel (Run.modifyStore (·.bind env name (.value v))) (Run.modifyStore (·.bind env name (.value v)))

/-- Binding the parameters of a function relates as binding one name does. -/
theorem PartialCongruence.bindParams (C : PartialCongruence)
    (hbind : ∀ frame name b, C.rel (Run.modifyStore (·.bind frame name b)) (Run.modifyStore (·.bind frame name b)))
    (frame : FrameId) (tail : List (Arg PromiseId)) (slots : List (Param × Option PromiseId)) :
    C.rel (bindParams frame tail slots) (bindParams frame tail slots) := by
  induction slots with
  | nil => exact C.pure ()
  | cons slot rest ih =>
    obtain ⟨param, given⟩ := slot
    refine C.bind ?_ fun b => C.bind (hbind frame param.name b) fun _ => ih
    unfold bindingOf
    dsimp only
    split
    · exact C.pure _
    · split
      · exact C.pure _
      · exact C.bind (C.newPromise _ _) fun _ => C.pure _
      · exact C.pure _

/-- What relates making contexts and frames and binding names relates the calls of closures. -/
def PartialCongruence.binding (C : PartialCongruence)
    (hcontext : ∀ c, C.rel (Run.make (·.newContext c)) (Run.make (·.newContext c)))
    (hframe : ∀ parent context,
      C.rel (Run.make (·.newFrame (some parent) (some context))) (Run.make (·.newFrame (some parent) (some context))))
    (hbind : ∀ frame name b, C.rel (Run.modifyStore (·.bind frame name b)) (Run.modifyStore (·.bind frame name b))) :
    Congruence where
  toPartialCongruence := C
  newContext := hcontext
  enterFrame parent context tail slots :=
    C.bind (hframe parent context) fun frame => C.bind (C.bindParams hbind frame tail slots) fun _ => C.pure frame
  assign env name v := hbind env name (.value v)

namespace Congruence

variable (C : Congruence) {ev ev' : Evaluator} (hev : ∀ n env, C.rel (ev n env) (ev' n env)) (env : FrameId)
include hev

theorem assignSpecial (args : List (Arg Node)) :
    C.rel (Special.assign ev env args) (Special.assign ev' env args) := by
  unfold Special.assign
  split
  · exact C.bind (C.ofExcept _) fun name => C.bind (hev _ env) fun v => C.bind (C.assign _ _ _) fun _ => C.pure _
  · exact C.throw _

theorem special (head : Node) (args : List (Arg Node)) (op : SpecialOp) :
    C.rel (op.apply ev env head args) (op.apply ev' env head args) := by
  by_cases hop : op = .assign
  · subst hop
    exact C.assignSpecial hev env args
  · exact C.toPartialCongruence.special hev env head args op hop

theorem closure (c : Closure) (head : Node) (args : List (Arg Node)) :
    C.rel (c.apply ev head args env) (c.apply ev' head args env) := by
  refine C.bind (C.delayArgs env args) fun actuals => C.bind C.store fun store => ?_
  dsimp only
  split
  · exact C.throw _
  · rename_i m _
    refine C.bind (C.newContext _) fun context => ?_
    -- Making the frame and binding the parameters are one action here.
    have h := C.bind (C.enterFrame c.env context m.tail (c.params.zip m.slots)) fun frame =>
      C.bind (C.record (.entering c.body)) fun _ => hev c.body frame
    simpa [Quotation.enterFrame] using h

variable {force force' : PromiseId → Run Value} (hforce : ∀ id, C.rel (force id) (force' id))
include hforce

theorem apply (head : Node) (args : List (Arg Node)) (f : Function) :
    C.rel (f.applyWith ev force head args env) (f.applyWith ev' force' head args env) := by
  cases f with
  | builtin id name op => exact C.bind (C.evalArgs hev env hforce args) fun vs => C.builtin hev name vs op
  | special id name op => exact C.special hev env head args op
  | closure id c => exact C.closure hev env c head args

/-- One level of evaluation relates what is below it. -/
theorem evalStep (n : Node) : C.rel (evalStepWith ev force n env) (evalStepWith ev' force' n env) := by
  rw [evalStepWith_eq_by, evalStepWith_eq_by]
  exact C.evalStepBy hev env hforce (fun head args f => C.apply hev env hforce head args f) n

end Congruence

end Quotation
