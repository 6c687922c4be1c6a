import Quotation.Proofs.Promise.Forcing
/-!
# The discipline of promises

A promise gets its value from the evaluation of its own expression, and from nothing else.
To say which evaluation that is, `evalBarring` is evaluation that is cut off before it forces
a promise where it is barred from that; with nothing barred it is evaluation. Barred from
forcing a promise wherever that gives a value, it does not give the promise this value
(`withholds_eval`): a run that has done so has come to such a forcing.

`promises_settle` is the discipline as a whole, for evaluation and for forcing, from any state
and on any stack of promises that are being forced.
-/

namespace Quotation

/-! ## Evaluation that is barred from forcing -/

section
open Run

variable (barred : Nat → PromiseId → State → Prop)

/-- Forces a promise with evaluation of some depth, unless that is barred. -/
noncomputable def forceBarring (ev : Evaluator) (depth : Nat) (id : PromiseId) : Run Value := do
  check fun s => ¬ barred depth id s
  force ev id

/-- Evaluation that is cut off before it forces a promise where that is barred. -/
noncomputable def evalBarring : Nat → Evaluator
  | 0 => fun _ _ => Run.cutOff
  | n + 1 => evalStepWith (evalBarring n) (forceBarring barred (evalBarring n) n)

/-- With nothing barred it is evaluation. -/
theorem evalBarring_nothing (depth : Nat) : evalBarring (fun _ _ _ => False) depth = eval depth := by
  induction depth with
  | zero => rfl
  | succ depth ih =>
    funext x env
    rw [evalBarring, eval, evalStep_eq_with, ih]
    congr 1
    funext id
    refine ExceptT.ext (StateT.ext fun s => ?_)
    exact run_bind_of_ends (if_pos not_false)

variable {barred} {α : Type} {ev : Evaluator} {depth : Nat} {id other : PromiseId} {s s' : State}

theorem not_ends_forceBarring (h : barred depth id s) (r : Except Error Value) (t : State) :
    ¬ (forceBarring barred ev depth id).Ends s r t := by
  have hcheck : (check fun s => ¬ barred depth id s).run.run s = none := if_neg (not_not_intro h)
  unfold forceBarring Ends
  rw [run_bind, hcheck]
  simp

theorem ends_forceBarring {r : Except Error Value} (h : ¬ barred depth id s) :
    (forceBarring barred ev depth id).Ends s r s' ↔ (force ev id).Ends s r s' :=
  ends_check_bind h

/-! ## A value that is withheld -/

/-- The promise is forced that has no value and no mark, and its own expression evaluates to the
value in its own environment. -/
def Yields (id : PromiseId) (v : Value) (depth : Nat) (other : PromiseId) (s : State) : Prop :=
  other = id ∧ (s.promise id).value = none ∧ (s.promise id).forcing = false ∧
    ∃ t, (eval depth (s.promise id).expr (s.promise id).env).Ends (s.mark id true) (.ok v) t

/-- The promise has not got the value between the states. -/
def Withheld (id : PromiseId) (v : Value) (s s' : State) : Prop :=
  (s'.promise id).value = some v → (s.promise id).value = some v

variable {v : Value}

theorem withheld_of_promises_eq (h : s'.store.promises = s.store.promises) : Withheld id v s s' := by
  intro hv
  rwa [State.promise, Store.promise, h] at hv

/-- An evaluation after which the promise has not got the value, and which did not yield it,
leaves it so when it is settled. -/
theorem withheld_settle {r : Except Error Value} {t : State} (hnot : ¬ (other = id ∧ r = .ok v))
    (h : Withheld id v (s.mark other true) t) : Withheld id v s (t.settle other r) := by
  have hmark (u : State) (b : Bool) : ((u.mark other b).promise id).value = (u.promise id).value := by
    by_cases hid : id = other
    · subst hid
      by_cases hhas : u.HasPromise id
      · rw [State.mark_promise_self hhas]
      · rw [State.mark_of_not_has hhas]
    · rw [State.mark_promise hid]
  intro hv
  have ht : (t.promise id).value = some v := by
    cases r with
    | error e => rwa [State.settle, hmark] at hv
    | ok w =>
      by_cases hid : id = other
      · -- another value was given to the promise, or the number is no promise's
        subst hid
        by_cases hhas : t.HasPromise id
        · rw [State.settle, State.fill_promise_self (State.mark_hasPromise.2 hhas)] at hv
          cases hv
          exact absurd ⟨rfl, rfl⟩ hnot
        · rw [State.settle, State.mark_of_not_has hhas, State.fill, State.modifyPromise_of_not_has hhas] at hv
          exact hv
      · rwa [State.settle, State.fill_promise hid, hmark] at hv
  rw [← hmark s true]
  exact h ht

/-- Nothing but forcing gives a promise a value. -/
def withholding (id : PromiseId) (v : Value) : Congruence :=
  .ofPromises (UnlessCut (Withheld id v)) (UnlessCut.bind fun h h' hv => h (h' hv)) UnlessCut.explain
    (fun h => .refl fun s r s' hx => withheld_of_promises_eq (h s r s' hx))
    fun expr env => .refl fun s r s' hx hv => by
      rw [(ends_make.1 hx).2] at hv
      exact (Store.newPromise_value s.store expr env id).symm.trans hv

/-- Forcing does not give a promise the value if it is barred from where that yields it. -/
theorem withholds_force
    (hev : ∀ x env, UnlessCut (Withheld id v) (eval depth x env) (evalBarring (Yields id v) depth x env))
    (other : PromiseId) : UnlessCut (Withheld id v) (force (eval depth) other)
      (forceBarring (Yields id v) (evalBarring (Yields id v) depth) depth other) := by
  intro s r s' h
  by_cases hyields : Yields id v depth other s
  · exact .inl (not_ends_forceBarring hyields)
  · simp only [ends_forceBarring hyields]
    refine unlessCut_force (fun _ hv => hv) hev (fun r t hnone hmark ht => withheld_settle ?_) h
    rintro ⟨rfl, rfl⟩
    exact hyields ⟨rfl, hnone, hmark, t, ht⟩

/-- Neither does evaluation, however deep it goes. -/
theorem withholds_eval (id : PromiseId) (v : Value) (depth : Nat) (x : Node) (env : FrameId) :
    UnlessCut (Withheld id v) (eval depth x env) (evalBarring (Yields id v) depth x env) := by
  -- One level is alike but for the forcings, and they go less deep.
  induction depth generalizing x env with
  | zero => exact fun s r s' h => absurd h not_ends_cutOff
  | succ depth ih =>
    rw [eval, evalBarring, evalStep_eq_with]
    exact (withholding id v).evalStep ih env (withholds_force ih) x

/-- The run in which a promise got a value came to a forcing that yielded it. -/
theorem not_ends_of_filled {x y : Run α} {r : Except Error α} (hx : UnlessCut (Withheld id v) x y)
    (h : x.Ends s r s') (hnone : (s.promise id).value = none) (hv : (s'.promise id).value = some v)
    (q : Except Error α) (t : State) : ¬ y.Ends s q t := by
  rcases hx s r s' h with hcut | ⟨_, hwithheld⟩
  · exact hcut q t
  · have hold := hwithheld hv
    rw [hnone] at hold
    cases hold

end

/-! ## The discipline of promises -/

/-- Forcing fails by itself, without evaluating anything, on a promise without a value that is
being forced, and on no other one. -/
theorem fails_itself_iff {stack : List PromiseId} {s : State} (hs : InProgress stack s) (id : PromiseId) :
    (∀ ev, (force ev id).Ends s (.error (.of .recursivePromise)) s) ↔ (s.promise id).value = none ∧ id ∈ stack := by
  constructor
  · intro h
    have hcut := h fun _ _ => Run.cutOff
    rw [ends_force] at hcut
    cases hv : (s.promise id).value with
    | some v =>
      simp only [hv] at hcut
      cases hcut.1
    | none =>
      simp only [hv] at hcut
      split at hcut
      · exact ⟨rfl, (hs id).1 (by assumption)⟩
      · obtain ⟨t, ht, _⟩ := hcut
        exact absurd ht Run.not_ends_cutOff
  · rintro ⟨hv, hid⟩ ev
    rw [ends_force]
    simp [hv, (hs id).2 hid]

/-- The promise that is evaluated has no value when its evaluation ends. -/
theorem value_eq_none_of_ends {depth : Nat} {stack : List PromiseId} {s t : State} {id : PromiseId}
    {r : Except Error Value} (hs : InProgress stack s) (hv : (s.promise id).value = none)
    (h : (eval depth (s.promise id).expr (s.promise id).env).Ends (s.mark id true) r t) :
    ((t.mark id false).promise id).value = none := by
  by_cases hhas : s.HasPromise id
  · have hset := (agrees_eval depth _ _ _ _ _ _ (hs.mark hhas) h).2
    rw [State.mark_promise_self (hset.later.given id (State.mark_hasPromise.2 hhas))]
    exact hset.value_eq_none hhas hv
  · rw [State.promise_of_not_has hhas, State.mark_of_not_has hhas] at h
    obtain ⟨rfl, rfl⟩ := ends_eval_missing h
    rwa [State.mark_of_not_has hhas]

/-- A promise that could not be evaluated has no value and no mark. -/
theorem ends_force_error {depth : Nat} {stack : List PromiseId} {s s' : State} {id : PromiseId} {e : Error}
    (hs : InProgress stack s) (hid : id ∉ stack) (h : (force (eval depth) id).Ends s (.error e) s') :
    (s'.promise id).value = none ∧ (s'.promise id).forcing = false := by
  have hend := hs.settled (agrees_force (agrees_eval depth) stack id s _ s' hs h).2
  refine ⟨?_, Bool.eq_false_iff.2 fun hf => hid ((hend id).1 hf)⟩
  rw [ends_force] at h
  cases hv : (s.promise id).value with
  | some v =>
    simp only [hv] at h
    cases h.1
  | none =>
    simp only [hv] at h
    split at h
    · exact h.2 ▸ hv
    · obtain ⟨t, ht, rfl⟩ := h
      exact value_eq_none_of_ends hs hv ht

/-- A promise without a value and a mark is evaluated when it is forced. -/
theorem ends_force_ok {ev : Evaluator} {s t : State} {id : PromiseId} {v : Value} (hv : (s.promise id).value = none)
    (hmark : (s.promise id).forcing = false)
    (h : (ev (s.promise id).expr (s.promise id).env).Ends (s.mark id true) (.ok v) t) :
    (force ev id).Ends s (.ok v) (t.settle id (.ok v)) := by
  rw [ends_force]
  simp only [hv, hmark]
  exact ⟨t, h, rfl⟩

/-- Evaluation and forcing, while the promises on a stack are being forced, end with the stack
written out as they do without it, and settle the promises. If a promise has got a value then,
the run came to forcing it when its own expression evaluated to this value: barred from that it
does not end. Forcing fails by itself exactly on the promises on the stack that have no value. If
it fails on another one, that has neither value nor mark afterwards, and is evaluated again when
it is forced again. -/
theorem promises_settle {depth : Nat} {stack : List PromiseId} {s : State} (hs : InProgress stack s) :
    (∀ x env r s', (eval depth x env).Ends s r s' →
      (evalOn depth stack x env).Ends s r s' ∧ Settled s s' ∧ InProgress stack s' ∧
        ∀ id v, (s.promise id).value = none → (s'.promise id).value = some v →
          ∀ q t, ¬ (evalBarring (Yields id v) depth x env).Ends s q t) ∧
    (∀ other r s', (force (eval depth) other).Ends s r s' →
      (forceOn (evalOn depth) stack other).Ends s r s' ∧ Settled s s' ∧ InProgress stack s' ∧
        ∀ id v, (s.promise id).value = none → (s'.promise id).value = some v →
          ∀ q t, ¬ (forceBarring (Yields id v) (evalBarring (Yields id v) depth) depth other).Ends s q t) ∧
    (∀ id, (∀ ev, (force ev id).Ends s (.error (.of .recursivePromise)) s) ↔
      (s.promise id).value = none ∧ id ∈ stack) ∧
    ∀ id e s', id ∉ stack → (force (eval depth) id).Ends s (.error e) s' →
      (s'.promise id).value = none ∧ (s'.promise id).forcing = false ∧
        ∀ ev v t, (ev (s'.promise id).expr (s'.promise id).env).Ends (s'.mark id true) (.ok v) t →
          (force ev id).Ends s' (.ok v) (t.settle id (.ok v)) := by
  refine ⟨fun x env r s' h => ?_, fun other r s' h => ?_, fails_itself_iff hs, fun id e s' hid h => ?_⟩
  · obtain ⟨hon, hset⟩ := agrees_eval depth stack x env s r s' hs h
    exact ⟨hon, hset, hs.settled hset, fun id v => not_ends_of_filled (withholds_eval id v depth x env) h⟩
  · obtain ⟨hon, hset⟩ := agrees_force (agrees_eval depth) stack other s r s' hs h
    exact ⟨hon, hset, hs.settled hset, fun id v =>
      not_ends_of_filled (withholds_force (withholds_eval id v depth) other) h⟩
  · obtain ⟨hv, hmark⟩ := ends_force_error hs hid h
    exact ⟨hv, hmark, fun ev v t => ends_force_ok hv hmark⟩

/-- In an environment where `p` is bound to a promise of `p` and `q` to a promise of a number, the
first promise is forced while it is being forced, and the second one gets the number. -/
theorem promises_settle_self : ∃ s s' t, InProgress [] s ∧
    (eval 3 (.symbol "p") 0).Ends s (.error (.of .recursivePromise)) s' ∧
    (evalOn 3 [] (.symbol "p") 0).Ends s (.error (.of .recursivePromise)) s' ∧
    (s'.promise 0).value = none ∧ (s'.promise 0).forcing = false ∧
    (eval 3 (.symbol "q") 0).Ends s (.ok (.scalar (.bool true))) t ∧
    (t.promise 1).value = some (.scalar (.bool true)) ∧
    ∀ r u, ¬ (evalBarring (Yields 1 (.scalar (.bool true))) 3 (.symbol "q") 0).Ends s r u := by
  let bound : State := State.ofBindings [("p", .promise 0), ("q", .promise 1)]
  let first : State := { bound with store := (bound.store.newPromise (.symbol "p") 0).2 }
  let s : State := { first with store := (first.store.newPromise (.const (.bool true)) 0).2 }
  have hs : InProgress [] s :=
    (Reached.promise (.const (.bool true)) 0 (.promise (.symbol "p") 0 (.around .start rfl))).inProgress
  have h : (eval 3 (.symbol "p") 0).Ends s (.error (.of .recursivePromise)) s := rfl
  have hfilled : (eval 3 (.symbol "q") 0).Ends s (.ok (.scalar (.bool true)))
      (s.settle 1 (.ok (.scalar (.bool true)))) := rfl
  obtain ⟨hon, _, _, _⟩ := (promises_settle hs).1 _ _ _ _ h
  obtain ⟨_, _, _, hforced⟩ := (promises_settle hs).1 _ _ _ _ hfilled
  exact ⟨s, s, _, hs, h, hon, rfl, rfl, hfilled, rfl, hforced 1 _ rfl rfl⟩

end Quotation
