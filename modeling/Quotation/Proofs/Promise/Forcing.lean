import Quotation.Proofs.Eval.Congruence
import Quotation.Proofs.Promise.Settling
/-!
# Promises being forced

The promises that are being forced make a stack, which evaluation does not keep: it
only marks promises. `evalOn` is evaluation with the stack written out. It consults the
stack where evaluation consults a mark, and wherever an evaluation or a forcing begins
or ends it compares the marks with the stack and does not go on unless they agree.
Evaluation comes to the same end as `evalOn` (`agrees_eval`), so they agree throughout.
-/

namespace Quotation

/-! ## What forcing does -/

/-- What is left when the evaluation of a promise has ended so: no mark, and the value if there
is one. -/
def State.settle (t : State) (id : PromiseId) : Except Error Value → State
  | .ok v => (t.mark id false).fill id v
  | .error _ => t.mark id false

section
open Run

variable {ev : Evaluator} {id : PromiseId} {s s' : State} {r : Except Error Value}

/-- A promise that has a value keeps it; a marked one fails; any other one is evaluated
while it is marked. -/
theorem ends_force : (force ev id).Ends s r s' ↔
    match (s.promise id).value with
    | some v => r = .ok v ∧ s' = s
    | none =>
      if (s.promise id).forcing then r = .error (.of .recursivePromise) ∧ s' = s
      else ∃ t, (ev (s.promise id).expr (s.promise id).env).Ends (s.mark id true) r t ∧ s' = t.settle id r := by
  unfold force
  rw [ends_store_bind]
  simp only [State.promise]
  cases hv : (s.store.promise id).value with
  | some v => simp
  | none =>
    cases hf : (s.store.promise id).forcing with
    | true => simp
    | false =>
      simp only [Bool.false_eq_true, if_false, ends_modifyStore_bind, ends_attempt_bind, ends_ofExcept_bind]
      constructor
      · rintro ⟨q, t, hq, h⟩
        cases q with
        | ok v =>
          obtain ⟨rfl, rfl⟩ := ends_pure.1 h
          exact ⟨t, hq, rfl⟩
        | error e =>
          obtain ⟨rfl, rfl⟩ := h
          exact ⟨t, hq, rfl⟩
      · rintro ⟨t, ht, rfl⟩
        refine ⟨r, t, ht, ?_⟩
        cases r with
        | ok v => exact ends_pure.2 ⟨rfl, rfl⟩
        | error e => exact ⟨rfl, rfl⟩

/-- Forcing with another evaluator is cut off or ends alike, if that is so of the evaluators. -/
theorem unlessCut_force {P : State → State → Prop} (hrefl : ∀ s, P s s) {ev ev' : Evaluator}
    (hev : ∀ n env, UnlessCut P (ev n env) (ev' n env))
    (hsettle : ∀ r t, (s.promise id).value = none → (s.promise id).forcing = false →
      (ev (s.promise id).expr (s.promise id).env).Ends (s.mark id true) r t → P (s.mark id true) t →
        P s (t.settle id r)) (h : (force ev id).Ends s r s') :
    (∀ r t, ¬ (force ev' id).Ends s r t) ∨ ((force ev' id).Ends s r s' ∧ P s s') := by
  rw [ends_force] at h
  simp only [ends_force]
  cases hv : (s.promise id).value with
  | some v =>
    simp only [hv] at h
    exact .inr ⟨h, h.2 ▸ hrefl s⟩
  | none =>
    simp only [hv] at h
    cases hmark : (s.promise id).forcing with
    | true =>
      simp only [hmark, if_true] at h
      exact .inr ⟨h, h.2 ▸ hrefl s⟩
    | false =>
      simp only [hmark, Bool.false_eq_true, if_false] at h ⊢
      obtain ⟨t, ht, rfl⟩ := h
      rcases hev _ _ _ _ _ ht with hcut | ⟨hy, hP⟩
      · exact .inl fun r u ⟨w, hw, _⟩ => hcut _ _ hw
      · exact .inr ⟨⟨t, hy, rfl⟩, hsettle r t hv hmark ht hP⟩

end

/-! ## The stack -/

/-- The marked promises are those on the stack. -/
def InProgress (stack : List PromiseId) (s : State) : Prop :=
  ∀ id, (s.promise id).forcing = true ↔ id ∈ stack

/-- There is such a stack in every state. -/
theorem exists_inProgress (s : State) : ∃ stack, InProgress stack s := by
  refine ⟨(List.range s.store.promises.size).filter fun id => (s.promise id).forcing, fun id => ?_⟩
  rw [List.mem_filter, List.mem_range]
  constructor
  · intro h
    refine ⟨Decidable.by_contra fun hn => ?_, h⟩
    rw [State.promise_of_not_has hn] at h
    cases h
  · intro h
    exact h.2

open Classical in
/-- Does not go on unless something holds of the state. -/
noncomputable def check (P : State → Prop) : Run Unit :=
  ExceptT.mk fun s => if P s then some (.ok (), s) else none

/-- Runs, with the stack being what is marked before and after. -/
noncomputable def watched {α : Type} (stack : List PromiseId) (x : Run α) : Run α := do
  check (InProgress stack)
  let r ← x.attempt
  check (InProgress stack)
  Run.ofExcept r

/-- The stack while a promise is evaluated. A number that was not given out stands for no
promise. -/
def pushed (s : Store) (id : PromiseId) (stack : List PromiseId) : List PromiseId :=
  if id < s.promises.size then id :: stack else stack

/-- The value of a promise: a promise on the stack fails, and the others are pushed on the
stack while they are evaluated. -/
noncomputable def forceOn (ev : List PromiseId → Evaluator) (stack : List PromiseId) (id : PromiseId) : Run Value :=
  watched stack do
    let store ← Run.store
    let p := store.promise id
    match p.value with
    | some v => return v
    | none =>
      if id ∈ stack then Run.fail .recursivePromise
      else
        Run.modifyStore (·.modifyPromise id fun p => { p with forcing := true })
        let result ← Run.attempt (ev (pushed store id stack) p.expr p.env)
        Run.modifyStore (·.modifyPromise id fun p => { p with forcing := false })
        check fun t => (t.promise id).value = none
        let v ← Run.ofExcept result
        Run.modifyStore (·.modifyPromise id fun p => { p with value := some v })
        return v

/-- Evaluates to a given depth while the promises on the stack are being forced. -/
noncomputable def evalOn : Nat → List PromiseId → Evaluator
  | 0, _ => fun _ _ => Run.cutOff
  | n + 1, stack => fun x env => watched stack (evalStepWith (evalOn n stack) (forceOn (evalOn n) stack) x env)

section
open Run

variable {α β : Type} {stack : List PromiseId} {s s' : State}

theorem ends_check_bind {P : State → Prop} {f : Unit → Run β} {r : Except Error β} (hs : P s) :
    (check P >>= f).Ends s r s' ↔ (f ()).Ends s r s' := by
  have hcheck : (check P).run.run s = some (.ok (), s) := if_pos hs
  unfold Ends
  rw [run_bind, hcheck]

theorem ends_watched {x : Run α} {r : Except Error α} (hs : InProgress stack s) (hs' : InProgress stack s')
    (hx : x.Ends s r s') : (watched stack x).Ends s r s' :=
  (ends_check_bind hs).2 (ends_attempt_bind.2 ⟨r, s', hx, (ends_check_bind hs').2 (ends_ofExcept.2 ⟨rfl, rfl⟩)⟩)

theorem InProgress.settled (hs : InProgress stack s) (h : Settled s s') : InProgress stack s' := by
  intro id
  rw [h.marks]
  exact hs id

/-- A relation that is kept by putting runs together, and holds of what makes a promise and of what
leaves the promises alone, is a congruence. -/
def Congruence.ofPromises (rel : {α : Type} → Run α → Run α → Prop)
    (bind : ∀ {α β : Type} {x y : Run α} {f g : α → Run β}, rel x y → (∀ a, rel (f a) (g a)) →
      rel (x >>= f) (y >>= g))
    (explain : ∀ {α : Type} {x y : Run α} (cause : Cause) (path : Path), rel x y →
      rel (x.explain cause path) (y.explain cause path))
    (alone : ∀ {α : Type} {x : Run α}, (∀ s r s', x.Ends s r s' → s'.store.promises = s.store.promises) → rel x x)
    (newPromise : ∀ expr env, rel (make (·.newPromise expr env)) (make (·.newPromise expr env))) : Congruence :=
  PartialCongruence.binding
    { rel, bind, explain, newPromise
      pure _ := alone fun s r s' h => by rw [(ends_pure.1 h).2]
      throw _ := alone fun s r s' h => by rw [(ends_throw.1 h).2]
      store := alone fun s r s' h => by rw [(ends_store.1 h).2]
      record _ := alone fun s r s' h => by rw [(ends_record.1 h).2]; rfl
      knownEnv _ := alone fun s r s' h => by cases h; rfl
      knownContext _ := alone fun s r s' h => by cases h; rfl
      newFunction := alone fun s r s' h => by rw [(ends_make.1 h).2]; rfl
      newRoot := alone fun s r s' h => by rw [(ends_make.1 h).2]; rfl }
    (fun _ => alone fun s r s' h => by rw [(ends_make.1 h).2]; rfl)
    (fun _ _ => alone fun s r s' h => by rw [(ends_make.1 h).2]; rfl)
    fun _ _ _ => alone fun s r s' h => by rw [(ends_modifyStore.1 h).2]; rfl

/-! ## Evaluation agrees with the stack -/

/-- While the promises on the stack are being forced, the one run ends as the other one does,
and the promises are settled then. -/
def Agrees (stack : List PromiseId) (x y : Run α) : Prop :=
  ∀ s r s', InProgress stack s → x.Ends s r s' → y.Ends s r s' ∧ Settled s s'

theorem agrees_of_promises_eq {x : Run α} (h : ∀ s r s', x.Ends s r s' → s'.store.promises = s.store.promises) :
    Agrees stack x x :=
  fun s r s' _ hx => ⟨hx, .of_promises_eq (h s r s' hx)⟩

theorem Agrees.bind {x y : Run α} {f g : α → Run β} (hx : Agrees stack x y)
    (hf : ∀ a, Agrees stack (f a) (g a)) : Agrees stack (x >>= f) (y >>= g) := by
  intro s r s' hs h
  rcases ends_bind.1 h with ⟨a, t, ha, hrest⟩ | ⟨e, he, rfl⟩
  · obtain ⟨hya, hset⟩ := hx s _ t hs ha
    obtain ⟨hga, hset'⟩ := hf a t r s' (hs.settled hset) hrest
    exact ⟨ends_bind.2 (.inl ⟨a, t, hya, hga⟩), hset.trans hset'⟩
  · obtain ⟨hye, hset⟩ := hx s _ s' hs he
    exact ⟨ends_bind.2 (.inr ⟨e, hye, rfl⟩), hset⟩

theorem Agrees.explain {x y : Run α} (cause : Cause) (path : Path) (hx : Agrees stack x y) :
    Agrees stack (x.explain cause path) (y.explain cause path) := by
  intro s r s' hs h
  obtain ⟨q, hq, rfl⟩ := ends_explain.1 h
  obtain ⟨hy, hset⟩ := hx s q s' hs hq
  exact ⟨ends_explain.2 ⟨q, hy, rfl⟩, hset⟩

theorem agrees_newPromise (expr : Node) (env : FrameId) :
    Agrees stack (make (·.newPromise expr env)) (make (·.newPromise expr env)) := by
  intro s r s' _ h
  obtain ⟨_, rfl⟩ := ends_make.1 h
  exact ⟨h, .newPromise s expr env⟩

def agreement (stack : List PromiseId) : Congruence :=
  .ofPromises (Agrees stack) Agrees.bind Agrees.explain agrees_of_promises_eq agrees_newPromise

/-! ## Forcing agrees with the stack -/

variable {depth : Nat} {id : PromiseId}

theorem InProgress.mark (hs : InProgress stack s) (hid : s.HasPromise id) :
    InProgress (id :: stack) (s.mark id true) := by
  intro other
  by_cases ho : other = id
  · subst ho
    rw [State.mark_promise_self hid]
    simp
  · rw [State.mark_promise ho, hs other]
    simp [ho]

theorem ends_forceOn_value {ev : List PromiseId → Evaluator} {v : Value} (hs : InProgress stack s)
    (hv : (s.promise id).value = some v) : (forceOn ev stack id).Ends s (.ok v) s := by
  refine ends_watched hs hs (ends_store_bind.2 ?_)
  simp only [State.promise] at hv
  simp [hv]

theorem ends_forceOn_recursive {ev : List PromiseId → Evaluator} (hs : InProgress stack s)
    (hv : (s.promise id).value = none) (hid : id ∈ stack) :
    (forceOn ev stack id).Ends s (.error (.of .recursivePromise)) s := by
  refine ends_watched hs hs (ends_store_bind.2 ?_)
  simp only [State.promise] at hv
  simp [hv, hid]

theorem ends_forceOn {ev : List PromiseId → Evaluator} {r : Except Error Value} {t : State} (hs : InProgress stack s)
    (hv : (s.promise id).value = none) (hid : id ∉ stack)
    (hev : (ev (pushed s.store id stack) (s.promise id).expr (s.promise id).env).Ends (s.mark id true) r t)
    (ht : ((t.mark id false).promise id).value = none) (hend : InProgress stack (t.settle id r)) :
    (forceOn ev stack id).Ends s r (t.settle id r) := by
  refine ends_watched hs hend (ends_store_bind.2 ?_)
  simp only [State.promise] at hv
  simp only [hv, hid, if_false]
  refine ends_modifyStore_bind.2 (ends_attempt_bind.2 ⟨r, t, hev, ends_modifyStore_bind.2 ?_⟩)
  refine (ends_check_bind ht).2 (ends_ofExcept_bind.2 ?_)
  cases r with
  | ok v => exact ends_modifyStore_bind.2 (ends_pure.2 ⟨rfl, rfl⟩)
  | error e => exact ⟨rfl, rfl⟩

/-- What a number that was not given out stands for does not evaluate to anything. -/
theorem ends_eval_missing {env : FrameId} {r : Except Error Value} (h : (eval depth .missing env).Ends s r s') :
    r = .error (.of (.notEvaluable .missing)) ∧ s' = s := by
  cases depth with
  | zero => exact absurd h not_ends_cutOff
  | succ depth => exact ends_fail.1 h

/-- If evaluations agree with the stack, so does forcing. -/
theorem agrees_force (ih : ∀ stack x env, Agrees stack (eval depth x env) (evalOn depth stack x env))
    (stack : List PromiseId) (id : PromiseId) :
    Agrees stack (force (eval depth) id) (forceOn (evalOn depth) stack id) := by
  intro s r s' hs h
  rw [ends_force] at h
  cases hv : (s.promise id).value with
  | some v =>
    simp only [hv] at h
    obtain ⟨rfl, rfl⟩ := h
    exact ⟨ends_forceOn_value hs hv, .refl _⟩
  | none =>
    simp only [hv] at h
    split at h
    · obtain ⟨rfl, rfl⟩ := h
      exact ⟨ends_forceOn_recursive hs hv ((hs id).1 (by assumption)), .refl _⟩
    · rename_i hmark
      have hid : id ∉ stack := fun hmem => hmark ((hs id).2 hmem)
      obtain ⟨t, hev, rfl⟩ := h
      by_cases hhas : s.HasPromise id
      · -- The mark is set before the evaluation, which thus runs with the promise on the stack.
        obtain ⟨hev', hset⟩ := ih _ _ _ _ _ _ (hs.mark hhas) hev
        have hmark := Bool.eq_false_iff.2 hmark
        have hdone : Settled s (t.settle id r) := by
          cases r with
          | ok v => exact hset.fill hhas hv hmark v
          | error e => exact hset.unmark hhas hmark
        refine ⟨ends_forceOn hs hv hid (by rwa [pushed, if_pos hhas]) ?_ (hs.settled hdone), hdone⟩
        rw [State.mark_promise_self (hset.later.given id (State.mark_hasPromise.2 hhas))]
        exact hset.value_eq_none hhas hv
      · -- No promise has the number, so nothing is marked, and what it reads as fails at once.
        have hsame : s.mark id true = s := State.mark_of_not_has hhas
        rw [hsame] at hev
        obtain ⟨hev', hset⟩ := ih _ _ _ _ _ _ hs hev
        rw [State.promise_of_not_has hhas] at hev
        obtain ⟨rfl, rfl⟩ := ends_eval_missing hev
        have hend : t.settle id (.error (.of (.notEvaluable .missing))) = t := State.mark_of_not_has hhas
        have hforce := ends_forceOn (t := t) hs hv hid (by rwa [pushed, if_neg hhas, hsame])
          (by rwa [State.mark_of_not_has hhas]) (by rwa [hend])
        rw [hend] at hforce ⊢
        exact ⟨hforce, .refl _⟩

/-- Evaluation agrees with the stack, whatever the promises on it. -/
theorem agrees_eval (depth : Nat) : ∀ (stack : List PromiseId) (x : Node) (env : FrameId),
    Agrees stack (eval depth x env) (evalOn depth stack x env) := by
  -- The stack stays general: what forces a promise evaluates less deep, with a larger stack.
  induction depth with
  | zero =>
    intro stack x env s r s' _ h
    exact absurd h not_ends_cutOff
  | succ depth ih =>
    intro stack x env s r s' hs h
    have hstep := (agreement stack).evalStep (ih stack) env (agrees_force ih stack) x
    rw [eval, evalStep_eq_with] at h
    obtain ⟨hy, hset⟩ := hstep s r s' hs h
    exact ⟨ends_watched hs (hs.settled hset) hy, hset⟩

end

/-- What there is to know about a promise stays while something is evaluated. -/
theorem later_of_ends_eval {depth : Nat} {x : Node} {env : FrameId} {s s' : State} {r : Except Error Value}
    (h : (eval depth x env).Ends s r s') : Later s s' := by
  obtain ⟨stack, hs⟩ := exists_inProgress s
  exact (agrees_eval depth stack x env s r s' hs h).2.later

/-! ## The states of a host -/

/-- States that a host brings about when nothing is being evaluated: it makes promises, changes
what is not a promise, evaluates and forces. -/
inductive Reached : State → Prop
  | start : Reached .empty
  | around {s s'} : Reached s → s'.store.promises = s.store.promises → Reached s'
  | promise {s} (expr : Node) (env : FrameId) : Reached s → Reached { s with store := (s.store.newPromise expr env).2 }
  | eval {s s' depth x env r} : Reached s → (eval depth x env).Ends s r s' → Reached s'
  | force {s s' depth id r} : Reached s → (force (eval depth) id).Ends s r s' → Reached s'

theorem Reached.inProgress {s : State} (h : Reached s) : InProgress [] s := by
  induction h with
  | start =>
    intro id
    rw [State.promise_of_not_has (Nat.not_lt_zero id)]
    simp
  | around _ hsame ih => exact ih.settled (.of_promises_eq hsame)
  | promise expr env _ ih => exact ih.settled (.newPromise _ expr env)
  | eval _ h ih => exact ih.settled (agrees_eval _ _ _ _ _ _ _ ih h).2
  | force _ h ih => exact ih.settled (agrees_force (agrees_eval _) _ _ _ _ _ ih h).2

end Quotation
