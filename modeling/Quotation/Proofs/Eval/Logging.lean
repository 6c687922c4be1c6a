import Quotation.Proofs.Eval.Congruence
import Quotation.Proofs.Run.Outcome
import Mathlib.Data.List.Forall2
/-!
# The log is not read

Evaluation records events, and nothing it does depends on what has been recorded. From two states
that differ in their logs only it ends alike, and the logs differ afterwards only where they did
before (`alike_eval`). `Run.Alike` is the relation that says so of two runs. The events, failures
and values in which the runs may differ are parameters of it.
-/

namespace Quotation

/-- The states are the same apart from their logs, where related events are in the same places. -/
structure State.LogsAlike (R : Event → Event → Prop) (s s' : State) : Prop where
  store : s'.store = s.store
  known : s'.known = s.known
  log : List.Forall₂ R s.log.toList s'.log.toList

namespace Run

variable {α β γ δ : Type} {R : Event → Event → Prop} {E : Error → Error → Prop} {A : α → β → Prop} {B : γ → δ → Prop}

/-- Two outcomes are alike: both runs are cut off, or both end with related values or failures, in
states that are the same apart from the logs. -/
inductive EndsAlike (R : Event → Event → Prop) (E : Error → Error → Prop) (A : α → β → Prop) :
    Option (Except Error α × State) → Option (Except Error β × State) → Prop
  | cutOff : EndsAlike R E A none none
  | ok {a b t t'} : A a b → t.LogsAlike R t' → EndsAlike R E A (some (.ok a, t)) (some (.ok b, t'))
  | error {e e' t t'} : E e e' → t.LogsAlike R t' → EndsAlike R E A (some (.error e, t)) (some (.error e', t'))

/-- From states that are the same apart from the logs the runs end alike. -/
def Alike (R : Event → Event → Prop) (E : Error → Error → Prop) (A : α → β → Prop) (x : Run α) (y : Run β) : Prop :=
  ∀ s s', s.LogsAlike R s' → EndsAlike R E A (x.run.run s) (y.run.run s')

theorem EndsAlike.ends_ok {x : Run α} {y : Run β} {s s' t : State} {a : α}
    (h : EndsAlike R E A (x.run.run s) (y.run.run s')) (hx : x.Ends s (.ok a) t) :
    ∃ b t', y.Ends s' (.ok b) t' ∧ A a b ∧ t.LogsAlike R t' := by
  unfold Ends at hx ⊢
  rw [hx] at h
  generalize y.run.run s' = q at h
  cases h with
  | ok ha ht => exact ⟨_, _, rfl, ha, ht⟩

theorem EndsAlike.exists_ends_ok_iff {x : Run α} {y : Run β} {s s' : State}
    (h : EndsAlike R E A (x.run.run s) (y.run.run s')) :
    (∃ a t, x.Ends s (.ok a) t) ↔ ∃ b t', y.Ends s' (.ok b) t' := by
  unfold Ends
  generalize x.run.run s = p, y.run.run s' = q at h
  cases h <;> simp

theorem EndsAlike.ends_error {x : Run α} {y : Run β} {s s' t : State} {e : Error}
    (h : EndsAlike R E A (x.run.run s) (y.run.run s')) (hx : x.Ends s (.error e) t) :
    ∃ e' t', y.Ends s' (.error e') t' ∧ E e e' ∧ t.LogsAlike R t' := by
  unfold Ends at hx ⊢
  rw [hx] at h
  generalize y.run.run s' = q at h
  cases h with
  | error he ht => exact ⟨_, _, rfl, he, ht⟩

theorem logsAlike_refl (hR : ∀ e, R e e) (s : State) : s.LogsAlike R s :=
  ⟨rfl, rfl, List.forall₂_same.2 fun e _ => hR e⟩

/-! ## Single actions -/

theorem alike_pure {a : α} {b : β} (h : A a b) : Alike R E A (pure a) (pure b) := fun _ _ hs => .ok h hs

theorem alike_throw {e e' : Error} (h : E e e') : Alike R E A (throw e) (throw e') := fun _ _ hs => .error h hs

theorem alike_ofExcept {x : Except Error α} (hE : ∀ e, E e e) : Alike R E Eq (Run.ofExcept x) (Run.ofExcept x) := by
  cases x with
  | error e => exact alike_throw (hE e)
  | ok a => exact alike_pure rfl

theorem alike_record {e e' : Event} (h : R e e') : Alike R E Eq (Run.record e) (Run.record e') := by
  intro s s' hs
  refine .ok rfl ⟨hs.store, hs.known, ?_⟩
  rw [Array.toList_push, Array.toList_push]
  exact List.rel_append hs.log (.cons h .nil)

/-- What depends on all but the log, and leaves the log alone. -/
theorem alike_of_unlogged {x : Run α} (f : Store → Known → α × Store × Known)
    (hx : ∀ s : State, x.run.run s =
      some (.ok (f s.store s.known).1, ⟨(f s.store s.known).2.1, s.log, (f s.store s.known).2.2⟩)) :
    Alike R E Eq x x := by
  intro s s' hs
  rw [hx, hx, hs.store, hs.known]
  exact .ok rfl ⟨rfl, rfl, hs.log⟩

theorem alike_store : Alike R E Eq Run.store Run.store :=
  alike_of_unlogged (fun store known => (store, store, known)) fun _ => rfl

theorem alike_modifyStore (f : Store → Store) : Alike R E Eq (Run.modifyStore f) (Run.modifyStore f) :=
  alike_of_unlogged (fun store known => ((), f store, known)) fun _ => rfl

theorem alike_make (f : Store → α × Store) : Alike R E Eq (Run.make f) (Run.make f) :=
  alike_of_unlogged (fun store known => ((f store).1, (f store).2, known)) fun _ => rfl

theorem alike_knownEnv (id : FrameId) : Alike R E Eq (Run.knownEnv id) (Run.knownEnv id) :=
  alike_of_unlogged (fun store known => ((internIn known.envs id).1, store,
    { known with envs := (internIn known.envs id).2 })) fun _ => rfl

theorem alike_knownContext (id : ContextId) : Alike R E Eq (Run.knownContext id) (Run.knownContext id) :=
  alike_of_unlogged (fun store known => ((internIn known.contexts id).1, store,
    { known with contexts := (internIn known.contexts id).2 })) fun _ => rfl

/-! ## Putting runs together -/

theorem Alike.bind {x : Run α} {y : Run β} {f : α → Run γ} {g : β → Run δ} (hx : Alike R E A x y)
    (hf : ∀ a b, A a b → Alike R E B (f a) (g b)) : Alike R E B (x >>= f) (y >>= g) := by
  intro s s' hs
  have h := hx s s' hs
  rw [run_bind, run_bind]
  generalize x.run.run s = p, y.run.run s' = q at h
  cases h with
  | cutOff => exact .cutOff
  | ok ha ht => exact hf _ _ ha _ _ ht
  | error he ht => exact .error he ht

/-- Where both runs give the same value, what follows has to be alike for one value only. -/
theorem Alike.bind_same {x y : Run α} {f : α → Run γ} {g : α → Run δ} (hx : Alike R E Eq x y)
    (hf : ∀ a, Alike R E B (f a) (g a)) : Alike R E B (x >>= f) (y >>= g) :=
  hx.bind fun a _ hab => hab ▸ hf a

theorem run_mapOutcome (g : Except Error α → Except Error β) (x : Run α) (s : State) :
    (x.run >>= fun q => (pure (g q) : StateT State Option (Except Error β))).run s =
      (x.run.run s).map fun p => (g p.1, p.2) := by
  rw [StateT.run_bind]
  rcases x.run.run s with _ | ⟨q, t⟩ <;> rfl

/-- Another failure is reported, with the same reason. -/
theorem Alike.explain {x : Run α} {y : Run β} {c : Cause} {path path' : Path} (hx : Alike R Eq A x y)
    (hE : ∀ e, E (.causedBy c path e) (.causedBy c path' e)) : Alike R E A (x.explain c path) (y.explain c path') := by
  intro s s' hs
  have h := hx s s' hs
  show EndsAlike R E A ((x.run >>= fun q => pure (q.mapError _)).run s)
    ((y.run >>= fun q => pure (q.mapError _)).run s')
  rw [run_mapOutcome, run_mapOutcome]
  generalize x.run.run s = p, y.run.run s' = q at h
  cases h with
  | cutOff => exact .cutOff
  | ok ha ht => exact .ok ha ht
  | error he ht => exact .error (he ▸ hE _) ht

theorem Alike.attempt {x y : Run α} (hx : Alike R Eq Eq x y) : Alike R E Eq x.attempt y.attempt := by
  intro s s' hs
  have h := hx s s' hs
  show EndsAlike R E Eq ((x.run >>= fun q => pure (.ok q)).run s) ((y.run >>= fun q => pure (.ok q)).run s')
  rw [run_mapOutcome, run_mapOutcome]
  generalize x.run.run s = p, y.run.run s' = q at h
  cases h with
  | cutOff => exact .cutOff
  | ok ha ht => exact .ok (ha ▸ rfl) ht
  | error he ht => exact .ok (he ▸ rfl) ht

end Run

/-! ## Evaluation -/

section
open Run

variable {R : Event → Event → Prop}

/-- No action of evaluation reads the log. -/
def unread (R : Event → Event → Prop) (hR : ∀ e, R e e) : Congruence :=
  PartialCongruence.binding
    { rel := Alike R Eq Eq
      pure _ := alike_pure rfl
      throw _ := alike_throw rfl
      bind := Alike.bind_same
      explain _ _ hx := hx.explain fun _ => rfl
      store := alike_store
      record e := alike_record (hR e)
      knownEnv := alike_knownEnv
      knownContext := alike_knownContext
      newPromise _ _ := alike_make _
      newFunction := alike_make _
      newRoot := alike_make _ }
    (fun _ => alike_make _) (fun _ _ => alike_make _) fun _ _ _ => alike_modifyStore _

theorem alike_force {ev : Evaluator} (hev : ∀ x env, Alike R Eq Eq (ev x env) (ev x env)) (id : PromiseId) :
    Alike R Eq Eq (force ev id) (force ev id) := by
  refine alike_store.bind_same fun store => ?_
  dsimp only
  split
  · exact alike_pure rfl
  · split
    · exact alike_throw rfl
    · refine (alike_modifyStore _).bind_same fun _ => (hev _ _).attempt.bind_same fun result => ?_
      refine (alike_modifyStore _).bind_same fun _ => (alike_ofExcept fun _ => rfl).bind_same fun v => ?_
      exact (alike_modifyStore _).bind_same fun _ => alike_pure rfl

/-- Evaluation ends alike whatever has been recorded before. -/
theorem alike_eval (hR : ∀ e, R e e) (depth : Nat) (x : Node) (env : FrameId) :
    Alike R Eq Eq (eval depth x env) (eval depth x env) := by
  induction depth generalizing x env with
  | zero => exact fun _ _ _ => .cutOff
  | succ depth ih =>
    rw [eval, evalStep_eq_with]
    exact (unread R hR).evalStep ih env (alike_force ih) x

end

end Quotation
