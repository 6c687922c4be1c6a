import Quotation.Proofs.Eval.Matching
import Quotation.Proofs.Frame.Binding
/-!
# Calls that get past matching

A closure is entered just if its arguments can be matched, and each of them then is in one place
(`entering_matches_arguments`). The context of the call records what was given for each parameter. It is
searched from the front, while the frame has the last parameter of a name, so the two agree on names
that only one parameter has (`captures_what_is_bound`).
-/

namespace Quotation

section
open Run Matching

variable {s t s' : State} {c : Closure} {head : Node} {args : List (Arg Node)} {env : FrameId}
  {actuals : List (Arg PromiseId)}

/-! ## Matching -/

/-- Calling a closure first matches the arguments. They get past that just if they can be matched, and
each parameter is then bound to what it was given; otherwise the call is a mismatch. No argument is
evaluated for it, and the frames there are stay as they are. -/
theorem entering_matches_arguments (c : Closure) (head : Node)
    (hactuals : (delayArgs env args).Ends s (.ok actuals) t) :
    (∀ ev, c.apply ev head args env = c.enter head args env >>= ev c.body) ∧ Adds s t ∧
    ((∃ frame s', (c.enter head args env).Ends s (.ok frame) s') ↔ Matchable c.params actuals) ∧
    (∀ frame s', (c.enter head args env).Ends s (.ok frame) s' →
      ∃ m f, Matched c.params actuals m ∧ IsEntered c head args env m t s' frame f) ∧
    (¬ Matchable c.params actuals → ∃ mismatch, ∀ ev,
      (c.apply ev head args env).Ends s (.error (.of (.mismatch mismatch))) t) := by
  refine ⟨fun ev => c.apply_eq_enter ev head args env, adds_of_ends_delayArgs hactuals, ?_⟩
  rcases ofArgs_cases (fun p => (t.promise p).expr) c.params actuals with
    ⟨hmatchable, m, hm, hmatched⟩ | ⟨hmatchable, mismatch, hm⟩
  · obtain ⟨u, f, hends, hentered⟩ := exists_ends_enter head hactuals hm
    refine ⟨⟨fun _ => hmatchable, fun _ => ⟨_, u, hends⟩⟩, fun frame s' h => ?_, fun h => absurd hmatchable h⟩
    obtain ⟨hframe, rfl⟩ := hends.unique h
    cases hframe
    exact ⟨m, f, hmatched, hentered⟩
  · have hends := ends_enter_of_mismatch head hactuals hm
    refine ⟨⟨fun ⟨frame, s', h⟩ => ?_, fun h => absurd h hmatchable⟩, fun frame s' h => ?_,
      fun _ => ⟨mismatch, fun ev => ?_⟩⟩
    · cases (hends.unique h).1
    · cases (hends.unique h).1
    · rw [Closure.apply_eq_enter]
      exact ends_bind_error.2 (.inr hends)

/-- In `f(y = a, b, c, z = d)` the last parameter is matched by name and the first one by place; what
is left is the tail. -/
theorem entering_matches_arguments_mixed : ∃ t s' f,
    (delayArgs 0 [.named "y" (.symbol "a"), .unnamed (.symbol "b"), .unnamed (.symbol "c"),
      .named "z" (.symbol "d")]).Ends (.ofBindings []) (.ok [.named "y" 0, .unnamed 1, .unnamed 2, .named "z" 3]) t ∧
    IsEntered ⟨[⟨"x", none⟩, ⟨tailName, none⟩, ⟨"y", none⟩], .missing, 0⟩ (.symbol "f")
      [.named "y" (.symbol "a"), .unnamed (.symbol "b"), .unnamed (.symbol "c"), .named "z" (.symbol "d")] 0
      ⟨[some 1, none, some 0], [.unnamed 2, .named "z" 3]⟩ t s' 1 f := by
  let c : Closure := ⟨[⟨"x", none⟩, ⟨tailName, none⟩, ⟨"y", none⟩], .missing, 0⟩
  let args : List (Arg Node) :=
    [.named "y" (.symbol "a"), .unnamed (.symbol "b"), .unnamed (.symbol "c"), .named "z" (.symbol "d")]
  let actuals : List (Arg PromiseId) := [.named "y" 0, .unnamed 1, .unnamed 2, .named "z" 3]
  let start := State.ofBindings []
  let t := (((delayArgs 0 args).run.run start).map (·.2)).getD start
  let s' := (((c.enter (.symbol "f") args 0).run.run start).map (·.2)).getD start
  have hactuals : (delayArgs 0 args).Ends start (.ok actuals) t := rfl
  have henter : (c.enter (.symbol "f") args 0).Ends start (.ok 1) s' := rfl
  obtain ⟨-, -, -, hentered, -⟩ := entering_matches_arguments c (.symbol "f") hactuals
  obtain ⟨m, f, hm, hf⟩ := hentered 1 s' henter
  have hok : ofArgs (fun p => (t.promise p).expr) c.params actuals =
      .ok ⟨[some 1, none, some 0], [.unnamed 2, .named "z" 3]⟩ := rfl
  obtain rfl := hm.unique (ofArgs_eq_ok_iff.1 hok).2
  exact ⟨t, s', f, hactuals, hf⟩

/-! ## What the context records -/

/-- For a name an expression is captured from the context, in whatever state. -/
def Context.Gives (context : Context) (name : String) (expr : Node) : Prop :=
  ∀ u, (captureArgument name context).Ends u (.ok expr) (u.logging (.captured expr name))

theorem Context.gives_of_parameter? {context : Context} {name : String} {expr : Node}
    (h : context.parameter? name = some expr) : context.Gives name expr := by
  intro u
  rw [captureArgument, h]
  exact ends_record_bind.2 (ends_pure.2 ⟨rfl, rfl⟩)

theorem Context.Gives.unique {context : Context} {name : String} {expr expr' : Node}
    (h : context.Gives name expr) (h' : context.Gives name expr') : expr = expr' :=
  Except.ok.inj ((h .empty).unique (h' .empty)).1

/-- The context has the first parameter of a name. -/
theorem lookup_given (exprOf : PromiseId → Node) {param : Param} {given : Option PromiseId}
    (htail : param.name ≠ tailName) : ∀ {slots : List (Param × Option PromiseId)} {i : Nat},
    slots[i]? = some (param, given) →
    (∀ (j : Nat) (slot : Param × Option PromiseId), j < i → slots[j]? = some slot → slot.1.name ≠ param.name) →
    (slots.filterMap fun (q, slot) => if q.name = tailName then none else some (q.name, givenExpr exprOf slot)).lookup
      param.name = some (givenExpr exprOf given)
  | [], _, h, _ => by cases h
  | _ :: _, 0, h, _ => by
    cases h
    simp only [List.filterMap_cons, htail, if_false, List.lookup_cons_self]
  | (q, slot) :: slots, i + 1, h, hfirst => by
    have hrest := lookup_given exprOf htail (i := i) h fun j slot hj hslot =>
      hfirst (j + 1) slot (Nat.succ_lt_succ hj) hslot
    have hne : q.name ≠ param.name := hfirst 0 _ (Nat.succ_pos i) rfl
    by_cases hq : q.name = tailName
    · simp only [List.filterMap_cons, hq, if_true, hrest]
    · simp only [List.filterMap_cons, hq, if_false, List.lookup_cons, beq_false_of_ne (Ne.symm hne), hrest]

theorem parameter?_callContext (exprOf : PromiseId → Node) (head : Node) (args : List (Arg Node)) (env : FrameId)
    {m : Matching} {i : Nat} {param : Param} {given : Option PromiseId} (htail : param.name ≠ tailName)
    (hparam : c.params[i]? = some param) (hgiven : m.slots[i]? = some given)
    (hfirst : ∀ (j : Nat) (q : Param), j < i → c.params[j]? = some q → q.name ≠ param.name) :
    (callContext exprOf head args env c.params m).parameter? param.name = some (givenExpr exprOf given) := by
  have hslot : (c.params.zip m.slots)[i]? = some (param, given) := List.getElem?_zip_eq_some.2 ⟨hparam, hgiven⟩
  exact lookup_given exprOf htail hslot fun j slot hj hslot => hfirst j slot.1 hj (List.getElem?_zip_eq_some.1 hslot).1

/-- What is captured for a name that only one parameter has is what that parameter is bound to: the
expression of the argument it was given, and the missing argument for its default or if there is
none. -/
theorem captures_what_is_bound {frame : FrameId} {i : Nat} {param : Param}
    (hactuals : (delayArgs env args).Ends s (.ok actuals) t)
    (henter : (c.enter head args env).Ends s (.ok frame) s') (hparam : c.params[i]? = some param)
    (htail : param.name ≠ tailName) (honly : ∀ j q, c.params[j]? = some q → q.name = param.name → j = i) :
    Adds t s' ∧ ∃ f id context b, s'.store.frames[frame]? = some f ∧ s'.store.context? frame = some id ∧
      s'.store.contexts[id]? = some context ∧ f.binding? param.name = some b ∧
      ((∃ a ∈ actuals, b = .promise a.value ∧ context.Gives param.name (t.promise a.value).expr) ∨
        (∃ expr p, param.default = some expr ∧ b = .promise p ∧ ¬ t.HasPromise p ∧
          s'.promise p = ⟨expr, frame, none, false⟩ ∧ context.Gives param.name .missing) ∨
        (param.default = none ∧ b = .missing ∧ context.Gives param.name .missing)) := by
  rcases ofArgs_cases (fun p => (t.promise p).expr) c.params actuals with ⟨-, m, hm, hmatched⟩ | ⟨-, mismatch, hm⟩
  · obtain ⟨u, f, hends, hentered⟩ := exists_ends_enter head hactuals hm
    obtain ⟨hframe, rfl⟩ := hends.unique henter
    cases hframe
    have hi : i < m.slots.length := hmatched.length ▸ (List.getElem?_eq_some_iff.1 hparam).1
    obtain ⟨given, hgiven⟩ : ∃ given, m.slots[i]? = some given := ⟨_, List.getElem?_eq_getElem hi⟩
    have hother (j : Nat) (q : Param) (hj : j ≠ i) (hq : c.params[j]? = some q) : q.name ≠ param.name :=
      fun hname => hj (honly j q hq hname)
    obtain ⟨b, hb, hbound⟩ := hentered.bound i param given hparam hgiven fun j q hj hq =>
      hother j q (Nat.ne_of_gt hj) hq
    obtain ⟨id, hid, hcontext⟩ := hentered.recorded
    have hgives := Context.gives_of_parameter? (parameter?_callContext (fun p => (t.promise p).expr) head args env htail
      hparam hgiven fun j q hj hq => hother j q (Nat.ne_of_lt hj) hq)
    have hcontext? : u.store.context? t.store.frames.size = some id := by
      rw [Store.context?, Store.chain, Store.chainUpTo, List.findSome?_cons, hentered.made, Option.bind_some, hid]
    refine ⟨hentered.adds, f, id, _, b, hentered.made, hcontext?, hcontext, hb, ?_⟩
    cases hbound with
    | tail h => exact absurd h htail
    | given _ =>
      obtain ⟨a, ha, rfl⟩ := hmatched.exists_of_slot hgiven
      exact .inl ⟨a, ha, rfl, hgives⟩
    | default _ hdefault hnew _ hpromise => exact .inr (.inl ⟨_, _, hdefault, rfl, hnew, hpromise, hgives⟩)
    | missing _ hdefault => exact .inr (.inr ⟨hdefault, rfl, hgives⟩)
  · cases ((ends_enter_of_mismatch head hactuals hm).unique henter).1

/-- In `f(a)` nothing is given for `y`, whose default is `x`. The frame has a promise of the default, and
the missing argument is captured. -/
theorem captures_what_is_bound_default : ∃ s' f context p,
    (Closure.enter ⟨[⟨"x", none⟩, ⟨"y", some (.symbol "x")⟩], .missing, 0⟩ (.symbol "f")
      [.unnamed (.symbol "a")] 0).Ends (.ofBindings []) (.ok 1) s' ∧
    s'.store.frames[1]? = some f ∧ s'.store.contexts[0]? = some context ∧ f.binding? "y" = some (.promise p) ∧
    (s'.promise p).expr = .symbol "x" ∧ context.Gives "y" .missing := by
  let c : Closure := ⟨[⟨"x", none⟩, ⟨"y", some (.symbol "x")⟩], .missing, 0⟩
  let args : List (Arg Node) := [.unnamed (.symbol "a")]
  let start := State.ofBindings []
  let t := (((delayArgs 0 args).run.run start).map (·.2)).getD start
  let s' := (((c.enter (.symbol "f") args 0).run.run start).map (·.2)).getD start
  have hactuals : (delayArgs 0 args).Ends start (.ok [.unnamed 0]) t := rfl
  have henter : (c.enter (.symbol "f") args 0).Ends start (.ok 1) s' := rfl
  have honly : ∀ j q, c.params[j]? = some q → q.name = "y" → j = 1
    | 0, _, h, hname => by
      cases h
      exact absurd hname (by decide)
    | 1, _, _, _ => rfl
    | _ + 2, _, h, _ => by cases h
  have hparam : c.params[1]? = some ⟨"y", some (.symbol "x")⟩ := rfl
  obtain ⟨-, f, id, context, b, hf, hid, hcontext, hb, hcases⟩ :=
    captures_what_is_bound hactuals henter hparam (by decide) honly
  cases hid
  obtain ⟨a, ha, rfl, _⟩ | ⟨expr, p, hdefault, rfl, _, hp, hgives⟩ | ⟨hdefault, _⟩ := hcases
  · cases hf
    obtain rfl := List.mem_singleton.1 ha
    cases hb
  · cases hdefault
    exact ⟨s', f, context, p, henter, hf, hcontext, hb, by rw [hp], hgives⟩
  · cases hdefault

/-- Parameters may share a name. In the body of `f(1, 2)`, where `f` is a `function(x, x)`, the frame has
the promise of the second argument, and the first one is captured. -/
theorem not_captured_of_repeated_name : ∃ s t u f context,
    (Special.function 0 [.unnamed (.pairlist [.unnamed (.symbol "x"), .unnamed (.symbol "x")]), .unnamed .missing]).Ends
      (.ofBindings []) (.ok (.function (.closure 0 ⟨[⟨"x", none⟩, ⟨"x", none⟩], .missing, 0⟩))) s ∧
    (delayArgs 0 [.unnamed (.const (.number (.int 1))), .unnamed (.const (.number (.int 2)))]).Ends s
      (.ok [.unnamed 0, .unnamed 1]) t ∧
    (Closure.enter ⟨[⟨"x", none⟩, ⟨"x", none⟩], .missing, 0⟩ (.symbol "f")
      [.unnamed (.const (.number (.int 1))), .unnamed (.const (.number (.int 2)))] 0).Ends s (.ok 1) u ∧
    u.store.frames[1]? = some f ∧ f.binding? "x" = some (.promise 1) ∧
    (t.promise 1).expr = .const (.number (.int 2)) ∧ u.store.context? 1 = some 0 ∧
    u.store.contexts[0]? = some context ∧ context.Gives "x" (.const (.number (.int 1))) ∧
    ¬ context.Gives "x" (.const (.number (.int 2))) := by
  have hgives (context : Context) (h : context.parameter? "x" = some (.const (.number (.int 1)))) :
      context.Gives "x" (.const (.number (.int 1))) ∧ ¬ context.Gives "x" (.const (.number (.int 2))) := by
    have hfirst := Context.gives_of_parameter? h
    exact ⟨hfirst, fun hsecond => by cases hfirst.unique hsecond⟩
  exact ⟨_, _, _, _, _, rfl, rfl, rfl, rfl, rfl, rfl, rfl, rfl, hgives _ rfl⟩

end

end Quotation
