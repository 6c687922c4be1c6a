import Quotation.Proofs.Frame.Binding
import Quotation.Proofs.Frame.Capture
import Quotation.Proofs.Frame.Nesting
import Mathlib.Data.List.Forall2
/-!
# Tails that are passed on

A closure that takes only a tail, and whose body calls another one with `...`, passes its
tail on. However many closures are chained so, the last body is evaluated in a frame whose
tail are the promises that the first call made, and each of them is evaluated in the
environment of the first call, successfully at most once (`tail_is_forwarded`).

The head of a call is evaluated before its arguments, in the frame that holds the tail. A name is
looked up there without touching that frame, since nothing refers to the frame yet; another head
may assign to `...`, and then the tail is not passed on (`not_forwarded_assigned`).
-/

namespace Quotation

open Run

variable {s t s' : State}

/-! ## Delayed arguments -/

/-- Promises of arguments, numbered from the given one on. -/
def numbered (first : PromiseId) : List (Arg Node) → List (Arg PromiseId)
  | [] => []
  | a :: as => ⟨a.name, first⟩ :: numbered (first + 1) as

/-- The state in which the promises of arguments have been made. -/
def State.delaying (s : State) (env : FrameId) : List (Arg Node) → State
  | [] => s
  | a :: as => State.delaying { s with store := (s.store.newPromise a.value env).2 } env as

/-- The call without a tail makes one promise for each argument. -/
theorem ends_delayArgs_of_no_tail {env : FrameId} {args : List (Arg Node)} (h : ∀ a ∈ args, a.isTail = false) :
    (delayArgs env args).Ends s (.ok (numbered s.store.promises.size args)) (s.delaying env args) := by
  induction args generalizing s with
  | nil => exact ends_pure.2 ⟨rfl, rfl⟩
  | cons a as ih =>
    obtain ⟨ha, has⟩ := List.forall_mem_cons.1 h
    have hrest := @ih { s with store := (s.store.newPromise a.value env).2 } has
    rw [delayArgs]
    simp only [ha, Bool.false_eq_true, if_false, pure_bind, ends_make_bind]
    refine ends_bind_ok.2 ⟨_, _, hrest, ends_pure.2 ⟨?_, rfl⟩⟩
    simp [numbered, Store.newPromise]

theorem addsPromises_delaying (s : State) (env : FrameId) (args : List (Arg Node)) :
    AddsPromises s (s.delaying env args) := by
  induction args generalizing s with
  | nil => exact .refl s
  | cons a as ih => exact (AddsPromises.newPromise s a.value env).trans (ih _)

/-- From one state to another promises have been made for arguments, one for each in order. -/
structure MadeFor (env : FrameId) (args : List (Arg Node)) (tail : List (Arg PromiseId)) (s s' : State) : Prop where
  each : List.Forall₂ (fun a e => e.name = a.name ∧ ¬ s.HasPromise e.value ∧ s'.HasPromise e.value ∧
    s'.promise e.value = ⟨a.value, env, none, false⟩) args tail
  distinct : (tail.map (·.value)).Nodup

theorem values_numbered (first : PromiseId) (args : List (Arg Node)) :
    (numbered first args).map (·.value) = List.range' first args.length := by
  induction args generalizing first with
  | nil => rfl
  | cons a as ih => rw [numbered, List.map_cons, ih, List.length_cons, List.range'_succ]

theorem madeFor_delaying (env : FrameId) (args : List (Arg Node)) :
    MadeFor env args (numbered s.store.promises.size args) s (s.delaying env args) := by
  refine ⟨?_, values_numbered s.store.promises.size args ▸ List.nodup_range'⟩
  induction args generalizing s with
  | nil => exact .nil
  | cons a as ih =>
    have hsize : (s.store.newPromise a.value env).2.promises.size = s.store.promises.size + 1 := by
      simp [Store.newPromise]
    obtain ⟨hhas, hsame⟩ := (addsPromises_delaying { s with store := (s.store.newPromise a.value env).2 } env as).kept
      s.store.promises.size (by rw [State.HasPromise, hsize]; exact Nat.lt_succ_self _)
    have hrest := @ih { s with store := (s.store.newPromise a.value env).2 }
    rw [hsize] at hrest
    refine .cons ⟨rfl, Nat.lt_irrefl _, hhas, hsame.trans ?_⟩ (hrest.imp fun b e h => ⟨h.1, ?_, h.2.2⟩)
    · rw [State.promise, Store.promise_newPromise, if_pos rfl]
    · intro hold
      exact h.2.1 (by rw [State.HasPromise, hsize]; exact Nat.lt_succ_of_lt hold)

theorem ends_tailOf_ok {env : FrameId} {tail : List (Arg PromiseId)}
    (h : s.store.get? env tailName = some (.tail tail)) : (tailOf env).Ends s (.ok tail) s := by
  rw [tailOf, ends_store_bind, h]
  exact ends_pure.2 ⟨rfl, rfl⟩

/-- The tail alone is passed on as it is. -/
theorem ends_delayArgs_tail {env : FrameId} {tail : List (Arg PromiseId)}
    (h : s.store.get? env tailName = some (.tail tail)) :
    (delayArgs env [.unnamed (.symbol tailName)]).Ends s (.ok tail) s := by
  refine ends_bind_ok.2 ⟨tail, s, ends_tailOf_ok h, ends_bind_ok.2 ⟨[], s, ends_pure.2 ⟨rfl, rfl⟩, ?_⟩⟩
  rw [List.append_nil]
  exact ends_pure.2 ⟨rfl, rfl⟩

/-! ## Closures that take a tail -/

/-- The tail is the only parameter. -/
def Closure.TakesTail (g : Closure) : Prop := ∃ default, g.params = [⟨tailName, default⟩]

/-- A tail that is the only parameter takes all arguments. -/
theorem Matching.ofArgs_tail (exprOf : PromiseId → Node) (default : Option Node) (args : List (Arg PromiseId)) :
    ofArgs exprOf [⟨tailName, default⟩] args = .ok ⟨[none], args⟩ := by
  have hnot (a : Arg PromiseId) : isMatched [⟨tailName, default⟩] a = false := by simp [isMatched]
  have hnone (a : Arg PromiseId) : named? [⟨tailName, default⟩] a = none := by
    simpa [isMatched_eq] using hnot a
  have hleft : (args.filter fun a => !isMatched [⟨tailName, default⟩] a) = args :=
    List.filter_eq_self.2 fun a _ => by rw [hnot a]; rfl
  refine ofArgs_eq_ok_iff.2 ⟨⟨?_, .inl ⟨_, .head _, rfl⟩⟩,
    ⟨rfl, fun a _ i hi => ?_, fun k i hk => ?_, fun i hi _ _ => ?_, ?_, .refl _⟩⟩
  · rw [List.filter_eq_nil_iff.2 fun a _ => by rw [hnot a]; exact Bool.false_ne_true]
    exact .nil
  · rw [hnone a] at hi
    cases hi
  · cases hk
  · rw [Nat.lt_one_iff.1 hi]
    rfl
  · rw [hleft]
    exact (dropUnnamed_zero args).symm

/-- The state in which the body of a closure is entered that takes only a tail. -/
def State.entered (t : State) (g : Closure) (head : Node) (args : List (Arg Node)) (env : FrameId)
    (tail : List (Arg PromiseId)) : State :=
  let u := t.calling g.env ⟨head, args, env, [], some tail⟩
  { u with store := u.store.bind t.store.frames.size tailName (.tail tail) }.logging (.entering g.body)

theorem ends_enter_of_takesTail {g : Closure} {head : Node} {args : List (Arg Node)} {env : FrameId}
    {tail : List (Arg PromiseId)} (hg : g.TakesTail) (hargs : (delayArgs env args).Ends s (.ok tail) t) :
    (g.enter head args env).Ends s (.ok t.store.frames.size) (t.entered g head args env tail) := by
  obtain ⟨default, hparams⟩ := hg
  refine ends_bind_ok.2 ⟨tail, t, hargs, ?_⟩
  rw [ends_store_bind]
  simp only [hparams, Matching.ofArgs_tail, enterFrame, bind_assoc, pure_bind, ends_make_bind, List.zip_cons_cons,
    List.zip_nil_right, bindParams, bindingOf, if_true, ends_modifyStore_bind]
  exact ends_record_bind.2 (ends_pure.2 ⟨rfl, rfl⟩)

theorem entered_frame (t : State) (g : Closure) (head : Node) (args : List (Arg Node)) (env : FrameId)
    (tail : List (Arg PromiseId)) : (t.entered g head args env tail).store.frames[t.store.frames.size]? =
      some ⟨some g.env, [(tailName, .tail tail)], some t.store.contexts.size⟩ := by
  show ((t.calling g.env ⟨head, args, env, [], some tail⟩).store.bind t.store.frames.size tailName
    (.tail tail)).frames[t.store.frames.size]? = _
  rw [Store.bind, Array.getElem?_modify, if_pos rfl, State.calling_frame, if_pos rfl]
  rfl

theorem entered_context (t : State) (g : Closure) (head : Node) (args : List (Arg Node)) (env : FrameId)
    (tail : List (Arg PromiseId)) : (t.entered g head args env tail).store.contexts[t.store.contexts.size]? =
      some ⟨head, args, env, [], some tail⟩ :=
  (State.calling_context t g.env _ _).trans (if_pos rfl)

/-! ## The chain of calls -/

/-- From a body on each closure passes the tail on to the next one: the body is a call with `...`
alone whose head evaluates to that closure in the frame of the call. A head that is not a name leaves
`...` as it is. -/
inductive Relays (tail : List (Arg PromiseId)) : Nat → Closure → List Closure → FrameId → State → Prop
  | last {d g f s} : Relays tail d g [] f s
  | next {d g h hs f s t head id} (hbody : g.body = .call head [.unnamed (.symbol tailName)])
      (hhead : (eval d head f).Ends s (.ok (.function (.closure id h))) t)
      (hkept : (∀ name, head ≠ .symbol name) → t.store.get? f tailName = s.store.get? f tailName)
      (hrest : Relays tail d h hs t.store.frames.size
        ((t.logging (.calling head 1)).entered h head [.unnamed (.symbol tailName)] f tail)) :
      Relays tail (d + 1) g (h :: hs) f s

/-- The head of the call can be any name of the next closure. -/
theorem Relays.of_name {tail : List (Arg PromiseId)} {d : Nat} {g h : Closure} {hs : List Closure} {f : FrameId}
    {name : String} {id : FunctionId} (hbody : g.body = .call (.symbol name) [.unnamed (.symbol tailName)])
    (hhead : (eval d (.symbol name) f).Ends s (.ok (.function (.closure id h))) t)
    (hrest : Relays tail d h hs t.store.frames.size
      ((t.logging (.calling (.symbol name) 1)).entered h (.symbol name) [.unnamed (.symbol tailName)] f tail)) :
    Relays tail (d + 1) g (h :: hs) f s :=
  .next hbody hhead (fun hne => absurd rfl (hne name)) hrest

/-- A name that is bound to a value evaluates to it. -/
theorem ends_eval_of_value {f : FrameId} {name : String} {v : Value} (hname : name.isEmpty = false)
    (hget : s.store.get? f name = some (.value v)) (d : Nat) : (eval (d + 1) (.symbol name) f).Ends s (.ok v) s := by
  show (if name.isEmpty then Run.fail (.notEvaluable .missing) else lookup (eval d) f name).Ends s _ s
  rw [if_neg (by simp [hname]), lookup, ends_store_bind, hget]
  exact ends_pure.2 ⟨rfl, rfl⟩

/-- A call of a closure that takes only a tail goes on as its body does. -/
theorem run_eval_call {d : Nat} {head : Node} {args : List (Arg Node)} {env : FrameId} {id : FunctionId} {g : Closure}
    {tail : List (Arg PromiseId)} {u : State} (hhead : (eval d head env).Ends s (.ok (.function (.closure id g))) t)
    (hargs : (delayArgs env args).Ends (t.logging (.calling head args.length)) (.ok tail) u) (hg : g.TakesTail) :
    (eval (d + 1) (.call head args) env).run.run s =
      (eval d g.body u.store.frames.size).run.run (u.entered g head args env tail) := by
  have henter : (g.enter head args env).Ends (t.logging (.calling head args.length)) (.ok u.store.frames.size)
    (u.entered g head args env tail) := ends_enter_of_takesTail hg hargs
  have hrecord : (Run.record (.calling head args.length)).Ends t (.ok ()) (t.logging (.calling head args.length)) :=
    ends_record.2 ⟨rfl, rfl⟩
  calc (eval (d + 1) (.call head args) env).run.run s
      = (Run.record (.calling head args.length) >>= fun _ => g.apply (eval d) head args env).run.run t :=
        run_bind_of_ends hhead
    _ = (g.apply (eval d) head args env).run.run (t.logging (.calling head args.length)) := run_bind_of_ends hrecord
    _ = (eval d g.body u.store.frames.size).run.run (u.entered g head args env tail) := by
        rw [Closure.apply_eq_enter, run_bind_of_ends henter]

/-- A frame in which nothing but the tail is bound, and whose context has that tail and no parameters. -/
def HoldsTail (f : FrameId) (tail : List (Arg PromiseId)) (s : State) : Prop :=
  ∃ (parent : FrameId) (id : ContextId) (c : Context),
    s.store.frames[f]? = some ⟨some parent, [(tailName, .tail tail)], some id⟩ ∧ s.store.contexts[id]? = some c ∧
      c.params = [] ∧ c.tail = some tail

theorem holdsTail_entered (t : State) (g : Closure) (head : Node) (args : List (Arg Node)) (env : FrameId)
    (tail : List (Arg PromiseId)) : HoldsTail t.store.frames.size tail (t.entered g head args env tail) :=
  ⟨g.env, t.store.contexts.size, _, entered_frame t g head args env tail, entered_context t g head args env tail,
    rfl, rfl⟩

/-- What is bound in a frame itself is found first. -/
theorem Store.get?_of_binding {store : Store} {id : FrameId} {f : Frame} {name : String} {b : Binding}
    (hf : store.frames[id]? = some f) (hb : f.binding? name = some b) : store.get? id name = some b := by
  rw [Store.get?, Store.chain, Store.chainUpTo, List.findSome?_cons, hf, Option.bind_some, hb]

theorem HoldsTail.get? {f : FrameId} {tail : List (Arg PromiseId)} (h : HoldsTail f tail s) :
    s.store.get? f tailName = some (.tail tail) := by
  obtain ⟨parent, id, c, hf, _⟩ := h
  exact Store.get?_of_binding hf rfl

theorem HoldsTail.hasFrame {f : FrameId} {tail : List (Arg PromiseId)} (h : HoldsTail f tail s) : s.HasFrame f := by
  obtain ⟨parent, id, c, hf, _⟩ := h
  exact (Array.getElem?_eq_some_iff.1 hf).1

/-! ## Frames that nothing refers to -/

/-- Nothing refers to the frame that has just been entered. -/
theorem isScoped_entered {g : Closure} {env : FrameId} (ht : t.store.IsScoped fun _ => False) (hg : t.HasFrame g.env)
    (henv : t.HasFrame env) (head : Node) (args : List (Arg Node)) (tail : List (Arg PromiseId)) :
    (t.entered g head args env tail).store.IsScoped (· = t.store.frames.size) := by
  have hcontext := ht.newContext (c := ⟨head, args, env, [], some tail⟩) (.of_lt henv)
  exact (hcontext.hide hg (some t.store.contexts.size)).bind t.store.frames.size tailName nofun

/-- A closure that something evaluates to was made in a frame that is there, and frames stay. -/
theorem isScoped_of_ends_eval {d : Nat} {x : Node} {env : FrameId} {id : FunctionId} {g : Closure}
    (hs : s.store.IsScoped fun _ => False) (henv : s.HasFrame env)
    (h : (eval d x env).Ends s (.ok (.function (.closure id g))) t) :
    (t.store.IsScoped fun _ => False) ∧ t.HasFrame g.env ∧ t.HasFrame env := by
  obtain ⟨ht, hspares, hshown⟩ := (keepsScope_eval _ d).inside x (.of_lt henv) s _ t hs (Nat.le_refl _) h
  have hclosure := hshown _ rfl
  cases hclosure with
  | closure _ hg => exact ⟨ht, hg.1, Nat.lt_of_lt_of_le henv hspares.size⟩

/-- Evaluating a name does not touch the frame it is looked up from, if nothing refers to that. -/
theorem get?_tail_of_name {d : Nat} {name : String} {f : FrameId} {tail : List (Arg PromiseId)} {v : Value}
    (hs : s.store.IsScoped (· = f)) (hf : HoldsTail f tail s) (h : (eval d (.symbol name) f).Ends s (.ok v) t) :
    t.store.get? f tailName = some (.tail tail) := by
  obtain ⟨parent, id, c, hframe, _⟩ := hf
  have hsame : t.store.frames[f]? = s.store.frames[f]? := by
    cases d with
    | zero => exact absurd h not_ends_cutOff
    | succ d =>
      by_cases hname : name.isEmpty
      · simp only [eval, evalStep, hname, if_true] at h
        cases (ends_fail.1 h).1
      · simp only [eval, evalStep, hname, Bool.false_eq_true, if_false] at h
        exact frames_of_ends_lookup hs h rfl
  exact Store.get?_of_binding (hsame.trans hframe) rfl

/-- However many closures pass the tail on, the body of the last one is evaluated in a frame with the
same tail. -/
theorem run_of_relays {tail : List (Arg PromiseId)} {d : Nat} {g : Closure} {gs : List Closure} {f : FrameId}
    (hgs : ∀ h ∈ gs, h.TakesTail) (hs : s.store.IsScoped (· = f)) (hf : HoldsTail f tail s)
    (h : Relays tail d g gs f s) :
    ∃ k f' s', k + gs.length = d ∧ (eval d g.body f).run.run s =
        (eval k ((g :: gs).getLast (List.cons_ne_nil g gs)).body f').run.run s' ∧
      HoldsTail f' tail s' ∧ Later s s' := by
  -- On the chain: one call takes the frame that holds the tail to the next one that does. Nothing
  -- refers to the one yet when the head is evaluated, and nothing to the next one after it is made.
  induction h with
  | @last d g f s => exact ⟨d, f, s, rfl, rfl, hf, .refl s⟩
  | @next d g h hs' f s t head id hbody hhead hkept _ ih =>
    obtain ⟨hh, hhs⟩ := List.forall_mem_cons.1 hgs
    have hget : t.store.get? f tailName = some (.tail tail) := by
      by_cases hname : ∃ name, head = .symbol name
      · obtain ⟨name, rfl⟩ := hname
        exact get?_tail_of_name hs hf hhead
      · exact (hkept fun name h => hname ⟨name, h⟩).trans hf.get?
    have htail : (delayArgs f [.unnamed (.symbol tailName)]).Ends (t.logging (.calling head 1)) (.ok tail)
        (t.logging (.calling head 1)) :=
      ends_delayArgs_tail hget
    obtain ⟨ht, hhenv, hft⟩ := isScoped_of_ends_eval hs.unhide hf.hasFrame hhead
    obtain ⟨k, f', s', hk, hrun, hholds, hlater⟩ :=
      ih hhs (isScoped_entered ht hhenv hft _ _ _) (holdsTail_entered _ _ _ _ _ _)
    refine ⟨k, f', s', ?_, ?_, hholds, ?_⟩
    · rw [List.length_cons]
      omega
    · rw [hbody, run_eval_call hhead htail hh, List.getLast_cons (List.cons_ne_nil h hs')]
      exact hrun
    · have hentered : Later t ((t.logging (.calling head 1)).entered h head [.unnamed (.symbol tailName)] f tail) :=
        .of_promises_eq rfl
      exact ((later_of_ends_eval hhead).trans hentered).trans hlater

/-! ## What becomes of the arguments -/

/-- From a state on, a promise is evaluated by evaluating an expression in an environment, unless it
has its value or is being evaluated, and never again once it has been evaluated successfully. -/
structure EvaluatedOnce (t : State) (id : PromiseId) (x : Node) (env : FrameId) : Prop where
  forced : ∀ ev u r u', Later t u → (force ev id).Ends u r u' →
    (∃ v, (u.promise id).value = some v ∧ r = .ok v ∧ u' = u) ∨
      ((u.promise id).forcing = true ∧ r = .error (.of .recursivePromise) ∧ u' = u) ∨
      ∃ w, (ev x env).Ends (u.mark id true) r w ∧ u' = w.settle id r
  once : ∀ depth u v u', Later t u → (force (eval depth) id).Ends u (.ok v) u' →
    ∀ ev w, Later u' w → (force ev id).Ends w (.ok v) w

/-- A promise that could be evaluated has its value. -/
theorem value_of_ends_force {depth : Nat} {id : PromiseId} {v : Value} (hhas : s.HasPromise id)
    (h : (force (eval depth) id).Ends s (.ok v) s') : (s'.promise id).value = some v := by
  rw [ends_force] at h
  cases hvalue : (s.promise id).value with
  | some w =>
    simp only [hvalue] at h
    obtain ⟨hw, rfl⟩ := h
    cases hw
    exact hvalue
  | none =>
    simp only [hvalue] at h
    split at h
    · cases h.1
    · obtain ⟨t, ht, rfl⟩ := h
      have hhas' : (t.mark id false).HasPromise id :=
        State.mark_hasPromise.2 ((later_of_ends_eval ht).given id (State.mark_hasPromise.2 hhas))
      rw [State.settle, State.fill_promise_self hhas']

theorem evaluatedOnce {id : PromiseId} {x : Node} {env : FrameId} (hhas : t.HasPromise id)
    (hexpr : (t.promise id).expr = x) (henv : (t.promise id).env = env) : EvaluatedOnce t id x env where
  forced ev u r u' hu h := by
    obtain ⟨hexpr', henv'⟩ := hu.same id hhas
    rw [ends_force] at h
    cases hvalue : (u.promise id).value with
    | some v =>
      simp only [hvalue] at h
      exact .inl ⟨v, rfl, h⟩
    | none =>
      simp only [hvalue] at h
      split at h
      · rename_i hmark
        exact .inr (.inl ⟨hmark, h⟩)
      · -- expression and environment of a promise never change
        rw [hexpr', henv', hexpr, henv] at h
        exact .inr (.inr h)
  once depth u v u' hu h ev w hw := by
    have hvalue := hw.kept id v (value_of_ends_force (hu.given id hhas) h)
    rw [ends_force, hvalue]
    exact ⟨rfl, rfl⟩

/-- The expressions of promises that were made for arguments are the arguments, at any later time. -/
theorem MadeFor.tailExprs {env : FrameId} {args : List (Arg Node)} {tail : List (Arg PromiseId)} {u : State}
    (h : MadeFor env args tail s t) (hu : Later t u) : u.tailExprs tail = args := by
  have heach := h.each
  clear h
  induction heach with
  | nil => rfl
  | @cons a e as tail h _ ih =>
    obtain ⟨hname, _, hhas, hpromise⟩ := h
    have hexpr : (u.promise e.value).expr = a.value := by rw [(hu.same _ hhas).1, hpromise]
    show (⟨e.name, (u.promise e.value).expr⟩ : Arg Node) :: u.tailExprs tail = a :: as
    rw [ih, hname, hexpr]

/-- What a body captures from its tail: the expressions that `...` stands for, as long as it is not
assigned to, and the ones in the context of the call. -/
structure Captures (f : FrameId) (args : List (Arg Node)) (s : State) : Prop where
  exprs : ∀ ev u, Later s u → u.store.get? f tailName = s.store.get? f tailName →
    (Special.exprs ev f [.unnamed (.symbol tailName)]).Ends u (.ok (.ofArgs args)) u
  enexprs : ∀ ev u, Later s u → Evolves nothing s u → ∃ u', (Special.enexprs ev f []).Ends u (.ok (.ofArgs args)) u'

theorem ends_tailExprs (tail : List (Arg PromiseId)) : (tailExprs tail).Ends s (.ok (s.tailExprs tail)) s :=
  ends_store_bind.2 (ends_pure.2 ⟨rfl, rfl⟩)

theorem ends_exprs_tail {ev : Evaluator} {f : FrameId} {tail : List (Arg PromiseId)}
    (h : s.store.get? f tailName = some (.tail tail)) :
    (Special.exprs ev f [.unnamed (.symbol tailName)]).Ends s (.ok (.ofArgs (s.tailExprs tail))) s := by
  have hexprs : (Special.exprsOf ev f (.unnamed (.symbol tailName))).Ends s (.ok (s.tailExprs tail)) s :=
    ends_bind_ok.2 ⟨tail, s, ends_tailOf_ok h, ends_tailExprs tail⟩
  refine ends_bind_ok.2 ⟨s.tailExprs tail, s, ends_bind_ok.2 ⟨_, s, hexprs, ?_⟩, ends_pure.2 ⟨rfl, rfl⟩⟩
  exact ends_bind_ok.2 ⟨[], s, ends_pure.2 ⟨rfl, rfl⟩, ends_pure.2 ⟨by rw [List.append_nil], rfl⟩⟩

theorem ends_captureAll_tail {ev : Evaluator} {c : Context} {tail : List (Arg PromiseId)} (hparams : c.params = [])
    (htail : c.tail = some tail) : (captureAll ev c (Special.givenParams c)).Ends s (.ok (s.tailExprs tail))
      (s.logging (.capturedAll (0 + (s.tailExprs tail).length) (s.tailExprs tail).length)) := by
  have hgiven : Special.givenParams c = [] := by rw [Special.givenParams, hparams, List.filterMap_nil]
  have hquote : (quoteExpanding ev c.env (.list [])).Ends s (.ok (.pairlist [])) s := rfl
  rw [captureAll_of_tail htail, hgiven]
  refine ends_bind_ok.2 ⟨_, s, hquote, ends_bind_ok.2 ⟨_, s, ends_tailExprs tail, ?_⟩⟩
  exact ends_record_bind.2 (ends_pure.2 ⟨rfl, rfl⟩)

theorem captures_of_holdsTail {f : FrameId} {args : List (Arg Node)} {tail : List (Arg PromiseId)}
    (hholds : HoldsTail f tail s) (hargs : ∀ u, Later s u → u.tailExprs tail = args) : Captures f args s where
  exprs ev u hu hget := hargs u hu ▸ ends_exprs_tail (hget.trans hholds.get?)
  enexprs ev u hu hevolves := by
    obtain ⟨parent, id, c, hf, hc, hparams, htail⟩ := hholds
    obtain ⟨f', hf', hgrown⟩ := hevolves.frame f _ hf
    have hid : u.store.context? f = some id := by
      rw [Store.context?, Store.chain, Store.chainUpTo, List.findSome?_cons, hf', Option.bind_some, hgrown.context]
    have hcontext : u.store.context id = c := by
      rw [Store.context, Array.getD_eq_getD_getElem?, hevolves.context id c hc]
      rfl
    have hall : (captureAll ev (u.store.context id) (Special.givenParams (u.store.context id))).Ends u (.ok args)
        (u.logging (.capturedAll (0 + args.length) args.length)) := by
      rw [hcontext, ← hargs u hu]
      exact ends_captureAll_tail hparams htail
    simp only [Special.enexprs, ends_contextOf_bind, ends_store_bind]
    exact ⟨_, id, hid, ends_bind_ok.2 ⟨args, _, hall, ends_pure.2 ⟨rfl, rfl⟩⟩⟩

/-! ## Forwarding -/

/-- Passing a tail on is transparent. A call of a closure with arguments that are not `...` makes
promises of them, and if closures that take only a tail pass it on, the body of the last one is
evaluated in a frame whose tail are those promises, in order and with the names of the arguments.
There the arguments are captured as they were written, and each one is evaluated in the environment
of the call, successfully at most once. -/
theorem tail_is_forwarded {d : Nat} {c : FrameId} {head : Node} {args : List (Arg Node)} {id : FunctionId} {g : Closure}
    {gs : List Closure} (hs : Built s) (hc : s.HasFrame c) (hargs : ∀ a ∈ args, a.isTail = false)
    (hgs : ∀ h ∈ g :: gs, h.TakesTail) (hhead : (eval d head c).Ends s (.ok (.function (.closure id g))) t) :
    ∃ tail u, (delayArgs c args).Ends (t.logging (.calling head args.length)) (.ok tail) u ∧ MadeFor c args tail t u ∧
      (Relays tail d g gs u.store.frames.size (u.entered g head args c tail) →
        ∃ k f s', k + gs.length = d ∧
          (eval (d + 1) (.call head args) c).run.run s =
            (eval k ((g :: gs).getLast (List.cons_ne_nil g gs)).body f).run.run s' ∧
          HoldsTail f tail s' ∧ Captures f args s' ∧ Later u s' ∧
          List.Forall₂ (fun a e => e.name = a.name ∧ EvaluatedOnce u e.value a.value c) args tail) := by
  obtain ⟨hg, hgs⟩ := List.forall_mem_cons.1 hgs
  have hdelay := @ends_delayArgs_of_no_tail (t.logging (.calling head args.length)) c args hargs
  have hmade := madeFor_delaying (s := t.logging (.calling head args.length)) c args
  refine ⟨_, _, hdelay, ⟨hmade.each, hmade.distinct⟩, fun hrelays => ?_⟩
  obtain ⟨ht, hgenv, hct⟩ := isScoped_of_ends_eval hs.isScoped hc hhead
  obtain ⟨hu, hspares, _⟩ :=
    keepsScope_delayArgs (.of_lt hct) args (t.logging (.calling head args.length)) _ _ ht (Nat.le_refl _) hdelay
  have hentry := isScoped_entered hu (Nat.lt_of_lt_of_le hgenv hspares.size) (Nat.lt_of_lt_of_le hct hspares.size)
    head args (numbered t.store.promises.size args)
  obtain ⟨k, f, s', hk, hrun, hholds, hentered⟩ :=
    run_of_relays hgs hentry (holdsTail_entered _ _ _ _ _ _) hrelays
  have hentering : Later ((t.logging (.calling head args.length)).delaying c args)
      (((t.logging (.calling head args.length)).delaying c args).entered g head args c
        (numbered t.store.promises.size args)) := .of_promises_eq rfl
  have hlater := hentering.trans hentered
  refine ⟨k, f, s', hk, (run_eval_call hhead hdelay hg).trans hrun, hholds,
    captures_of_holdsTail hholds fun u hu => hmade.tailExprs (hlater.trans hu), hlater, ?_⟩
  exact hmade.each.imp fun a e ⟨hname, _, hhas, hpromise⟩ =>
    ⟨hname, evaluatedOnce hhas (by rw [hpromise]) (by rw [hpromise])⟩

/-- Two closures pass the arguments of `g(x, a = y)` on to a third one, which captures them. The second
one is the value of a promise. -/
theorem tail_is_forwarded_twice :
    let relay (name : String) : Closure := ⟨[⟨tailName, none⟩], .call (.symbol name) [.unnamed (.symbol tailName)], 0⟩
    let last : Closure := ⟨[⟨tailName, none⟩], .call (.symbol "exprs") [.unnamed (.symbol tailName)], 0⟩
    let args : List (Arg Node) := [.unnamed (.symbol "x"), .named "a" (.symbol "y")]
    let bound := State.ofBindings [("g", .value (.function (.closure 0 (relay "h")))), ("h", .promise 0),
      ("p", .value (.function (.closure 1 (relay "k")))), ("k", .value (.function (.closure 2 last)))]
    let start : State := { bound with store := (bound.store.newPromise (.symbol "p") 0).2 }
    ∃ u f s', Built start ∧ (eval 10 (.call (.symbol "g") args) 0).run.run start = (eval 7 last.body f).run.run s' ∧
      HoldsTail f [.unnamed 1, .named "a" 2] s' ∧ Captures f args s' ∧ Later u s' ∧
      EvaluatedOnce u 1 (.symbol "x") 0 ∧ EvaluatedOnce u 2 (.symbol "y") 0 := by
  intro relay last args bound start
  have hbuilt : Built start := by
    have hbound : Built bound := by
      refine .ofBindings [] (.root .start) (by decide) fun e he v hv => ?_
      simp only [List.mem_cons, List.not_mem_nil, or_false] at he
      obtain rfl | rfl | rfl | rfl := he <;> cases hv <;> exact .closure _ Nat.one_pos
    exact hbound.promise (.symbol "p") Nat.one_pos
  have hhead : (eval 9 (.symbol "g") 0).Ends start (.ok (.function (.closure 0 (relay "h")))) start := rfl
  have hargs : ∀ a ∈ args, a.isTail = false :=
    List.forall_mem_cons.2 ⟨rfl, List.forall_mem_cons.2 ⟨rfl, List.forall_mem_nil _⟩⟩
  have hgs : ∀ h ∈ [relay "h", relay "k", last], h.TakesTail := by
    simp [Closure.TakesTail, relay, last]
  obtain ⟨tail, u, hdelay, -, hforwarded⟩ := tail_is_forwarded hbuilt Nat.one_pos hargs hgs hhead
  obtain ⟨htail, rfl⟩ := hdelay.unique (ends_delayArgs_of_no_tail hargs)
  cases htail
  obtain ⟨k, f, s', hk, hrun, hholds, hcaptures, hlater, honce⟩ :=
    hforwarded (.of_name rfl rfl (.of_name rfl rfl .last))
  obtain rfl : k = 7 := by simpa using hk
  obtain ⟨⟨-, hx⟩, hrest⟩ := List.forall₂_cons.1 honce
  obtain ⟨⟨-, hy⟩, -⟩ := List.forall₂_cons.1 hrest
  exact ⟨_, f, s', hbuilt, hrun, hholds, hcaptures, hlater, hx, hy⟩

/-- A head that is not a name may assign to `...` before it gives the next closure. The call `g(x)`
fails then, where the body of `g` is ``({ `...` <- 5; h })(...)``, and the body of `h` is not entered. -/
theorem not_forwarded_assigned :
    let last : Closure := ⟨[⟨tailName, none⟩], .call (.symbol "exprs") [.unnamed (.symbol tailName)], 0⟩
    let head : Node := .call (.symbol "\x7b") [.unnamed (.call (.symbol "<-") [.unnamed (.symbol tailName),
      .unnamed (.const (.number (.int 5)))]), .unnamed (.symbol "h")]
    let relay : Closure := ⟨[⟨tailName, none⟩], .call head [.unnamed (.symbol tailName)], 0⟩
    let start := State.ofBindings [("g", .value (.function (.closure 0 relay))),
      ("h", .value (.function (.closure 1 last))), ("\x7b", .value (.function (.special 2 "\x7b" .block))),
      ("<-", .value (.function (.special 3 "<-" .assign)))]
    ∃ s t s', Built start ∧ relay.TakesTail ∧ last.TakesTail ∧
      (relay.enter (.symbol "g") [.unnamed (.symbol "x")] 0).Ends start (.ok 1) s ∧
      (eval 9 head 1).Ends s (.ok (.function (.closure 1 last))) t ∧
      (eval 10 (.call (.symbol "g") [.unnamed (.symbol "x")]) 0).Ends start (.error (.of (.unbound tailName))) s' ∧
      .entering last.body ∉ s'.log.toList := by
  intro last head relay start
  have hbuilt : Built start := by
    refine .ofBindings [] (.root .start) (by decide) fun e he v hv => ?_
    simp only [List.mem_cons, List.not_mem_nil, or_false] at he
    obtain rfl | rfl | rfl | rfl := he <;> cases hv
    · exact .closure _ Nat.one_pos
    · exact .closure _ Nat.one_pos
    · exact .special _ _ _
    · exact .special _ _ _
  refine ⟨_, _, _, hbuilt, ⟨none, rfl⟩, ⟨none, rfl⟩, rfl, rfl, rfl, ?_⟩
  show Event.entering last.body ∉ [.calling (.symbol "g") 1, .entering relay.body, .calling (.symbol "\x7b") 2,
    .calling (.symbol "<-") 2, .calling head 1]
  simp [last, relay, head]

end Quotation
