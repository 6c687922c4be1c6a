import Quotation.Eval.Base
import Quotation.Proofs.Frame.Keeping
import Quotation.Proofs.Run.Failing
/-!
# Evaluation keeps scopes

Builtins return scalars, lists of what they are given, or expressions; the only closures that are new
come from `function`, and live where it was called. So calls of functions keep scopes, and evaluation
does, to any depth (`keepsScope_eval`). Frames that nothing refers to are therefore left alone, also
when a name is looked up from one of them (`frames_of_ends_lookup`).
-/

namespace Quotation

/-! ## Builtins -/

/-- What is computed is a scalar, if it can be computed. -/
def GivesScalar (x : Except Error Value) : Prop := ∀ v, x = .ok v → ∃ c, v = .scalar c

namespace GivesScalar

theorem ok (c : Constant) : GivesScalar (.ok (.scalar c)) := fun v hv => ⟨c, by cases hv; rfl⟩

theorem error (e : Error) : GivesScalar (.error e) := nofun

theorem bind {α : Type} {x : Except Error α} {f : α → Except Error Value} (h : ∀ a, GivesScalar (f a)) :
    GivesScalar (x >>= f) := by
  intro v hv
  obtain ⟨a, _, ha⟩ := bind_eq_ok_iff.1 hv
  exact h a v ha

theorem foldAll (procedure : String) (op : Number → Number → Option Number) (args : List (Arg Value)) :
    GivesScalar (Builtin.foldAll procedure op args) := by
  cases args with
  | nil => exact error _
  | cons a as => exact bind fun n => bind fun r => ok _

theorem sum (args : List (Arg Value)) : GivesScalar (Builtin.sum args) := by
  cases args with
  | nil => exact ok _
  | cons a as => exact foldAll "+" Number.add? (a :: as)

theorem product (args : List (Arg Value)) : GivesScalar (Builtin.product args) := by
  cases args with
  | nil => exact ok _
  | cons a as => exact foldAll "*" Number.mul? (a :: as)

theorem difference (args : List (Arg Value)) : GivesScalar (Builtin.difference args) := by
  unfold Builtin.difference
  split
  · refine bind fun n => ?_
    split
    · exact ok _
    · exact error _
  · exact foldAll _ _ _

theorem quotient (args : List (Arg Value)) : GivesScalar (Builtin.quotient args) := by
  refine bind fun _ => bind fun _ => bind fun _ => ?_
  split
  · exact ok _
  · exact error _

theorem comparison (test : Comparison) (args : List (Arg Value)) : GivesScalar (Builtin.comparison test args) :=
  bind fun _ => bind fun _ => ok _

theorem identical (args : List (Arg Value)) : GivesScalar (Builtin.identical args) := bind fun _ => ok _

theorem paste (args : List (Arg Value)) : GivesScalar (Builtin.paste args) := bind fun _ => ok _

theorem keepsScope {x : Except Error Value} (h : GivesScalar x) {hidden : FrameId → Prop} {n : Nat} :
    KeepsScope hidden n (Value.Shown hidden) (Run.ofExcept x) := by
  refine .ofExcept fun v hv m _ => ?_
  obtain ⟨c, rfl⟩ := h v hv
  exact .scalar c

end GivesScalar

section
variable {hidden : FrameId → Prop} {n : Nat} {env : FrameId} {ev : Evaluator} (hev : ev.KeepsScope hidden)
include hev

theorem keepsScope_makeCall (args : List (Arg Value)) :
    KeepsScope hidden n (Value.Shown hidden) (Builtin.makeCall ev args) := by
  cases args with
  | nil => exact .throw _
  | cons head args =>
    exact (KeepsScope.outcome _).seq fun c => (KeepsScope.outcome _).seq fun parts =>
      KeepsScope.newRoot.bind fun m env _ henv =>
        (keepsScope_buildCall hev henv {} c parts).seq fun x => .pure fun _ _ => .lang x

theorem keepsScope_builtin (name : String) {args : List (Arg Value)} (hargs : EntriesShown hidden n args)
    (op : BuiltinOp) : KeepsScope hidden n (Value.Shown hidden) (op.apply ev name args) := by
  have hlist : KeepsScope hidden n (Value.Shown hidden) (pure (.list args)) :=
    .pure fun m hm => .list fun e he => (hargs e he).mono hm
  cases op with
  | add => exact (GivesScalar.sum args).keepsScope
  | subtract => exact (GivesScalar.difference args).keepsScope
  | multiply => exact (GivesScalar.product args).keepsScope
  | divide => exact (GivesScalar.quotient args).keepsScope
  | compare test => exact (GivesScalar.comparison test args).keepsScope
  | list => exact hlist
  | identical => exact (GivesScalar.identical args).keepsScope
  | paste => exact (GivesScalar.paste args).keepsScope
  | makeCall => exact keepsScope_makeCall hev args
  | probe p =>
    cases p with
    | arguments => exact hlist
    | null => exact (GivesScalar.ok .null).keepsScope
    | fail => exact (GivesScalar.error _).keepsScope
    | oversized => exact (GivesScalar.error _).keepsScope

/-! ## Specials -/

variable (henv : Shown hidden n env)

omit hev in
theorem keepsScope_enexpr (args : List (Arg Node)) :
    KeepsScope hidden n (Value.Shown hidden) (Special.enexpr env args) :=
  (KeepsScope.outcome _).seq fun _ => (KeepsScope.outcome _).seq fun name => keepsScope_contextOf.seq fun _ =>
    .readStore fun _ _ _ => (keepsScope_captureArgument name _).seq fun x => .pure fun _ _ => .ofNode _ x

/-- Captured arguments are captured where the function was called. -/
theorem keepsScope_captured (explicit : Context → List (Arg Syntax)) {give : List (Arg Node) → Value}
    (hgive : ∀ m as, (give as).Shown hidden m) : KeepsScope hidden n (Value.Shown hidden) (do
      let id ← contextOf env
      let c := (← Run.store).context id
      return give (← captureAll ev c (explicit c))) :=
  keepsScope_contextOf.seq fun id => .readStore fun _ hstore _ =>
    (keepsScope_captureAll hev (hstore.context_env id) _).seq fun as => .pure fun m _ => hgive m as

theorem keepsScope_enexprs (args : List (Arg Node)) :
    KeepsScope hidden n (Value.Shown hidden) (Special.enexprs ev env args) := by
  cases args with
  | nil => exact keepsScope_captured hev Special.givenParams fun _ as => .ofArgs _ as
  | cons a as => exact .throw _

omit hev in
theorem keepsScope_function (henv : Shown hidden n env) (args : List (Arg Node)) :
    KeepsScope hidden n (Value.Shown hidden) (Special.function env args) := by
  unfold Special.function
  split
  · split
    · exact (KeepsScope.outcome _).seq fun params => KeepsScope.newFunction.seq fun id =>
        .pure fun m hm => .closure id (henv.mono hm)
    · exact .throw _
  · exact .throw _

include henv

theorem keepsScope_expr (args : List (Arg Node)) :
    KeepsScope hidden n (Value.Shown hidden) (Special.expr ev env args) :=
  (KeepsScope.outcome _).seq fun _ => (keepsScope_quoteExpanding hev henv _).seq fun x => .pure fun _ _ => .ofNode _ x

theorem keepsScope_exprs (args : List (Arg Node)) :
    KeepsScope hidden n (Value.Shown hidden) (Special.exprs ev env args) := by
  have hof (a : Arg Node) : KeepsScope hidden n anything (Special.exprsOf ev env a) := by
    unfold Special.exprsOf
    split
    · exact keepsScope_tailOf.seq fun tail => keepsScope_tailExprs tail
    · refine (keepsScope_quoteExpanding hev henv _).seq fun x => ?_
      split
      · exact .gives _
      · exact .gives _
  have hlist : KeepsScope hidden n anything (Special.exprsList ev env args) := by
    induction args with
    | nil => exact .gives _
    | cons a as ih => exact (hof a).seq fun _ => ih.seq fun _ => .gives _
  exact hlist.seq fun as => .pure fun _ _ => .ofArgs _ as

theorem keepsScope_evalSpecial (args : List (Arg Node)) :
    KeepsScope hidden n (Value.Shown hidden) (Special.eval ev env args) := by
  refine (KeepsScope.outcome _).seq fun x => (hev.inside x henv).bind fun m v hm hv => ?_
  cases v with
  | lang expr => exact hev.inside expr (henv.mono hm)
  | scalar c => exact .pure fun k hk => hv.mono hk
  | list entries => exact .pure fun k hk => hv.mono hk
  | function f => exact .pure fun k hk => hv.mono hk

theorem keepsScope_assign (args : List (Arg Node)) :
    KeepsScope hidden n (Value.Shown hidden) (Special.assign ev env args) := by
  unfold Special.assign
  split
  · refine (KeepsScope.outcome _).seq fun name => (hev.inside _ henv).bind fun m v hm hv => ?_
    refine KeepsScope.seq (KeepsScope.bindName (henv.mono hm) name fun w hw => ?_) fun _ => .pure fun k hk => hv.mono hk
    cases hw
    exact hv
  · exact .throw _

theorem keepsScope_block {last : Value} (hlast : last.Shown hidden n) (args : List (Arg Node)) :
    KeepsScope hidden n (Value.Shown hidden) (Special.block ev env last args) := by
  induction args generalizing n last with
  | nil => exact .pure fun m hm => hlast.mono hm
  | cons a as ih => exact (hev.inside a.value henv).bind fun m v hm hv => ih (henv.mono hm) hv

theorem keepsScope_branch (test yes : Arg Node) (no : Option (Arg Node)) :
    KeepsScope hidden n (Value.Shown hidden) (Special.condition.branch ev env test yes no) := by
  refine (hev.inside _ henv).seq fun v => ?_
  split
  · exact .throw _
  · exact hev.inside _ henv
  · split
    · exact hev.inside _ henv
    · exact .pure fun _ _ => .scalar _

theorem keepsScope_condition (args : List (Arg Node)) :
    KeepsScope hidden n (Value.Shown hidden) (Special.condition ev env args) := by
  unfold Special.condition
  split
  · exact keepsScope_branch hev henv _ _ _
  · exact keepsScope_branch hev henv _ _ _
  · exact .throw _

omit henv in
theorem keepsScope_probe (head : Node) (args : List (Arg Node)) (p : CallProbe) :
    KeepsScope hidden n (Value.Shown hidden) (Special.probe ev env head args p) := by
  cases p with
  | call => exact .pure fun _ _ => .lang _
  | environment => exact (KeepsScope.knownEnv env).seq fun _ => .pure fun _ _ => .scalar _
  | context =>
    exact keepsScope_contextOf.seq fun id => (KeepsScope.knownContext id).seq fun _ => .pure fun _ _ => .scalar _
  | captureAll =>
    refine keepsScope_captured hev (fun _ => renderedArgs args) fun m as => .list fun e he => ?_
    obtain ⟨a, _, rfl⟩ := List.mem_map.1 he
    exact .lang a.value

theorem keepsScope_special (head : Node) (args : List (Arg Node)) (op : SpecialOp) :
    KeepsScope hidden n (Value.Shown hidden) (op.apply ev env head args) := by
  cases op with
  | quote =>
    refine .ofExcept fun v hv m _ => ?_
    obtain ⟨x, _, hx⟩ := bind_eq_ok_iff.1 hv
    cases hx
    exact .ofNode _ x
  | expr => exact keepsScope_expr hev henv args
  | exprs => exact keepsScope_exprs hev henv args
  | enexpr => exact keepsScope_enexpr args
  | enexprs => exact keepsScope_enexprs hev args
  | eval => exact keepsScope_evalSpecial hev henv args
  | function => exact keepsScope_function henv args
  | assign => exact keepsScope_assign hev henv args
  | block => exact keepsScope_block hev henv (.scalar .null) args
  | condition => exact keepsScope_condition hev henv args
  | probe p => exact keepsScope_probe hev head args p

/-! ## Calls of functions -/

omit hev henv in
theorem keepsScope_bindParams {frame : FrameId} (hframe : Shown hidden n frame) (tail : List (Arg PromiseId))
    (slots : List (Param × Option PromiseId)) : KeepsScope hidden n anything (bindParams frame tail slots) := by
  -- Parameters are bound to promises and tails, and to no values.
  have hbinding (param : Param) (given : Option PromiseId) :
      KeepsScope hidden n (fun _ b => ∀ v, b ≠ .value v) (bindingOf frame tail param given) := by
    unfold bindingOf
    dsimp only
    split
    · exact .pure fun _ _ => nofun
    · split
      · exact .pure fun _ _ => nofun
      · exact (KeepsScope.newPromise _ hframe).seq fun _ => .pure fun _ _ => nofun
      · exact .pure fun _ _ => nofun
  induction slots with
  | nil => exact .gives _
  | cons slot rest ih =>
    obtain ⟨param, given⟩ := slot
    exact (hbinding param given).bind fun m b hm hb =>
      (KeepsScope.bindName (hframe.mono hm) param.name fun v hv => absurd hv (hb v)).seq fun _ => ih.mono hm

/-- The body of a closure is evaluated in a new frame, inside the one the closure was made in. -/
theorem keepsScope_closure {c : Closure} (hc : Shown hidden n c.env) (head : Node) (args : List (Arg Node)) :
    KeepsScope hidden n (Value.Shown hidden) (c.apply ev head args env) := by
  refine (keepsScope_delayArgs henv args).seq fun actuals => .readStore fun store _ hn => ?_
  dsimp only
  split
  · exact .throw _
  · rename_i m _
    have hparent : ∀ p, some c.env = some p → Shown hidden store.frames.size p := fun p hp =>
      Option.some.inj hp ▸ hc.mono hn
    exact (KeepsScope.newContext (henv.mono hn)).seq fun context =>
      (KeepsScope.newFrame hparent (some context)).bind fun _ frame _ hframe =>
        (keepsScope_bindParams hframe m.tail _).seq fun _ => (KeepsScope.record _).seq fun _ => hev.inside c.body hframe

theorem keepsScope_apply {f : Function} (hf : (Value.function f).Shown hidden n) (head : Node)
    (args : List (Arg Node)) : KeepsScope hidden n (Value.Shown hidden) (f.apply ev head args env) := by
  cases hf with
  | builtin id name op =>
    exact (keepsScope_evalArgs hev henv args).bind fun m vs _ hvs => keepsScope_builtin hev name hvs op
  | special id name op => exact keepsScope_special hev henv head args op
  | closure id hc => exact keepsScope_closure hev henv hc head args

theorem keepsScope_evalStep (x : Node) : KeepsScope hidden n (Value.Shown hidden) (evalStep ev x env) := by
  cases x with
  | const c => exact .pure fun _ _ => .scalar c
  | symbol name =>
    unfold evalStep
    dsimp only
    split
    · exact .throw _
    · exact keepsScope_lookup hev name
  | call head args =>
    refine (hev.inside head henv).bind fun m v hm hv => ?_
    cases v with
    | function f =>
      exact (KeepsScope.record _).seq fun _ => keepsScope_apply hev (henv.mono hm) hv head args
    | scalar c => exact .throw _
    | lang x => exact .throw _
    | list entries => exact .throw _
  | pairlist args => exact .throw _

end

/-! ## Evaluation -/

/-- Evaluation keeps scopes, however deep it goes. -/
theorem keepsScope_eval (hidden : FrameId → Prop) (depth : Nat) : (eval depth).KeepsScope hidden := by
  induction depth with
  | zero => exact ⟨fun _ _ _ => fun _ _ _ _ _ h => absurd h Run.not_ends_cutOff,
      fun _ _ _ _ _ _ h => absurd h Run.not_ends_cutOff⟩
  | succ depth ih => exact ⟨fun x _ henv => keepsScope_evalStep ih henv x, fun _ => .throw _⟩

/-- A name may be looked up from anywhere, also from a frame that nothing refers to: such frames are
left alone. -/
theorem frames_of_ends_lookup {hidden : FrameId → Prop} {depth : Nat} {env : FrameId} {name : String} {s s' : State}
    {r : Except Error Value} (hs : s.store.IsScoped hidden) (h : (lookup (eval depth) env name).Ends s r s')
    {id : FrameId} (hid : hidden id) : s'.store.frames[id]? = s.store.frames[id]? :=
  (keepsScope_lookup (keepsScope_eval hidden depth) name s r s' hs (Nat.zero_le _) h).2.1.same id hid

/-! ## The base environment -/

section
open Run

variable {hidden : FrameId → Prop} {n : Nat}

theorem keepsScope_bindNew {env : FrameId} (henv : Shown hidden n env) (name : String) {make : Run Function}
    (hmake : KeepsScope hidden n (fun m f => (Value.function f).Shown hidden m) make) :
    KeepsScope hidden n anything (bindNew env name make) := by
  refine hmake.bind fun m f hm hf => KeepsScope.bindName (henv.mono hm) name fun v hv => ?_
  cases hv
  exact hf

theorem keepsScope_forM {α : Type} {f : α → Run Unit} (hf : ∀ a, KeepsScope hidden n anything (f a)) (as : List α) :
    KeepsScope hidden n anything (as.forM f) := by
  induction as with
  | nil => exact .gives _
  | cons a as ih => exact (hf a).seq fun _ => ih

/-- A new base environment is shown. -/
theorem keepsScope_newBase : KeepsScope hidden n (Shown hidden) newBase := by
  refine KeepsScope.newRoot.bind fun m env _ henv => ?_
  have hbuiltin (entry : String × BuiltinOp) :
      KeepsScope hidden m anything (bindNew env entry.1 (newBuiltin entry.1 entry.2)) :=
    keepsScope_bindNew henv _ (KeepsScope.newFunction.seq fun id => .pure fun _ _ => .builtin id _ _)
  have hspecial (entry : String × SpecialOp) :
      KeepsScope hidden m anything (bindNew env entry.1 (newSpecial entry.1 entry.2)) :=
    keepsScope_bindNew henv _ (KeepsScope.newFunction.seq fun id => .pure fun _ _ => .special id _ _)
  exact (keepsScope_forM hbuiltin _).seq fun _ => (keepsScope_forM hspecial _).seq fun _ =>
    .pure fun k hk => henv.mono hk

end

end Quotation
