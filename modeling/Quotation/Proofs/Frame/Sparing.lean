import Quotation.Eval.Base
import Quotation.Proofs.Frame.Entering
/-!
# Evaluation that is spared an assignment

Evaluation adds frames, and in the frames there are it only changes what `<-` assigns. To say
so, `evalSparing` is evaluation that is cut off before it assigns what is forbidden: unless it
is cut off it ends as evaluation does, and no frame has got a forbidden binding (`spares_eval`).
With nothing forbidden it is evaluation.
-/

namespace Quotation

/-! ## Evaluation that is spared an assignment -/

section
open Run Classical

variable (forbidden : FrameId → String → Value → Prop)

/-- An assignment that is cut off if it is forbidden. -/
noncomputable def Special.assignSparing (ev : Evaluator) (env : FrameId) (args : List (Arg Node)) : Run Value := do
  match args with
  | [lhs, rhs] =>
    let name ← Run.ofExcept (target lhs.value)
    let v ← ev rhs.value env
    if forbidden env name v then Run.cutOff
    else
      Run.modifyStore (·.bind env name (.value v))
      return v
  | _ => throw (arityError "<-" 2 args.length)

noncomputable def Function.applySparing (ev : Evaluator) (head : Node) (args : List (Arg Node)) (env : FrameId) :
    Function → Run Value
  | .special _ _ .assign => Special.assignSparing forbidden ev env args
  | f => f.apply ev head args env

/-- Evaluation that is cut off before it makes a forbidden assignment. -/
noncomputable def evalSparing : Nat → Evaluator
  | 0 => fun _ _ => Run.cutOff
  | n + 1 => evalStepBy (evalSparing n) (force (evalSparing n)) fun head args env f =>
    f.applySparing forbidden (evalSparing n) head args env

/-! ## Runs that are spared -/

variable {α β : Type} {s s' : State}

/-- Where the first run ends the second one is cut off, or ends alike after nothing that is
forbidden. -/
abbrev Spares (x y : Run α) : Prop := UnlessCut (Evolves forbidden) x y

variable {forbidden}

theorem spares_of_frames_eq {x : Run α} (h : ∀ s r s', x.Ends s r s' → s'.store.frames = s.store.frames ∧
    s'.store.contexts = s.store.contexts ∧ s.store.promises.size ≤ s'.store.promises.size) : Spares forbidden x x :=
  UnlessCut.refl fun s r s' hx => .of_frames_eq (h s r s' hx).1 (h s r s' hx).2.1 (h s r s' hx).2.2

theorem spares_of_same {x : Run α} (h : ∀ s r s', x.Ends s r s' → s' = s) : Spares forbidden x x :=
  UnlessCut.refl fun s r s' hx => h s r s' hx ▸ .refl _

theorem Spares.bind {x y : Run α} {f g : α → Run β} (hx : Spares forbidden x y)
    (hf : ∀ a, Spares forbidden (f a) (g a)) : Spares forbidden (x >>= f) (y >>= g) :=
  UnlessCut.bind Evolves.trans hx hf

/-- What binds no names is spared. -/
def sparing (forbidden : FrameId → String → Value → Prop) : PartialCongruence where
  rel := Spares forbidden
  pure a := spares_of_same fun s r s' h => (ends_pure.1 h).2
  throw e := spares_of_same fun s r s' h => (ends_throw.1 h).2
  bind := Spares.bind
  explain := UnlessCut.explain
  store := spares_of_same fun s r s' h => (ends_store.1 h).2
  record e := spares_of_frames_eq fun s r s' h => by
    rw [(ends_record.1 h).2]
    exact ⟨rfl, rfl, Nat.le_refl _⟩
  knownEnv id := spares_of_frames_eq fun s r s' h => by
    cases h
    exact ⟨rfl, rfl, Nat.le_refl _⟩
  knownContext id := spares_of_frames_eq fun s r s' h => by
    cases h
    exact ⟨rfl, rfl, Nat.le_refl _⟩
  newPromise expr env := spares_of_frames_eq fun s r s' h => by
    rw [(ends_make.1 h).2]
    exact ⟨rfl, rfl, by simp [Store.newPromise]⟩
  newFunction := spares_of_frames_eq fun s r s' h => by
    rw [(ends_make.1 h).2]
    exact ⟨rfl, rfl, Nat.le_refl _⟩
  newRoot := UnlessCut.refl fun s r s' h => by
    rw [(ends_make.1 h).2]
    exact .newRoot s

/-! ## Evaluation is spared -/

theorem spares_closure {ev ev' : Evaluator} (hev : ∀ n env, Spares forbidden (ev n env) (ev' n env)) (c : Closure)
    (head : Node) (args : List (Arg Node)) (env : FrameId) :
    Spares forbidden (c.apply ev head args env) (c.apply ev' head args env) := by
  rw [Closure.apply_eq_enter, Closure.apply_eq_enter]
  exact Spares.bind (.refl fun s r s' => evolves_of_ends_enter) fun frame => hev c.body frame

theorem spares_assign {ev ev' : Evaluator} (hev : ∀ n env, Spares forbidden (ev n env) (ev' n env)) (env : FrameId)
    (args : List (Arg Node)) :
    Spares forbidden (Special.assign ev env args) (Special.assignSparing forbidden ev' env args) := by
  match args with
  | [lhs, rhs] =>
    refine Spares.bind ((sparing forbidden).ofExcept _) fun name => (hev _ env).bind fun v => ?_
    by_cases hforbidden : forbidden env name v
    · rw [if_pos hforbidden]
      exact .cutOff
    · rw [if_neg hforbidden]
      refine Spares.bind (.refl fun s r s' h => ?_) fun _ => (sparing forbidden).pure v
      rw [(ends_modifyStore.1 h).2]
      exact .assign hforbidden
  | [] => exact (sparing forbidden).throw _
  | [_] => exact (sparing forbidden).throw _
  | _ :: _ :: _ :: _ => exact (sparing forbidden).throw _

theorem spares_force {ev ev' : Evaluator} (hev : ∀ n env, Spares forbidden (ev n env) (ev' n env)) (id : PromiseId) :
    Spares forbidden (force ev id) (force ev' id) :=
  fun s _ _ => unlessCut_force .refl hev fun r t _ _ _ hevolves =>
    ((Evolves.modifyPromise s id _).trans hevolves).trans (.settle t id r)

theorem spares_apply {ev ev' : Evaluator} (hev : ∀ n env, Spares forbidden (ev n env) (ev' n env)) (head : Node)
    (args : List (Arg Node)) (env : FrameId) (f : Function) :
    Spares forbidden (f.apply ev head args env) (f.applySparing forbidden ev' head args env) := by
  cases f with
  | builtin id name op =>
    rw [Function.applySparing, apply_eq_with, apply_eq_with]
    · exact Spares.bind ((sparing forbidden).evalArgs hev env (spares_force hev) args) fun vs =>
        (sparing forbidden).builtin hev name vs op
    · exact nofun
  | special id name op =>
    by_cases hop : op = .assign
    · subst hop
      exact spares_assign hev env args
    · rw [Function.applySparing]
      · exact (sparing forbidden).special hev env head args op hop
      · rintro _ _ ⟨⟩
        exact hop rfl
  | closure id c => exact spares_closure hev c head args env

/-- Evaluation is spared, however deep it goes. -/
theorem spares_eval (depth : Nat) (x : Node) (env : FrameId) :
    Spares forbidden (eval depth x env) (evalSparing forbidden depth x env) := by
  -- One level is alike but for the calls of functions, of which only `<-` is another one.
  induction depth generalizing x env with
  | zero => exact fun s r s' h => absurd h not_ends_cutOff
  | succ depth ih =>
    rw [eval, evalSparing, evalStep_eq_with, evalStepWith_eq_by]
    refine (sparing forbidden).evalStepBy ih env (spares_force ih) (fun head args f => ?_) x
    rw [← apply_eq_with]
    exact spares_apply ih head args env f

/-! ## Nothing forbidden -/

/-- Forbids no assignment. -/
def nothing : FrameId → String → Value → Prop := fun _ _ _ => False

theorem assignSparing_nothing (ev : Evaluator) (env : FrameId) (args : List (Arg Node)) :
    Special.assignSparing nothing ev env args = Special.assign ev env args := by
  match args with
  | [lhs, rhs] =>
    unfold Special.assignSparing Special.assign nothing
    simp only [if_false]
  | [] | [_] | _ :: _ :: _ :: _ => rfl

theorem applySparing_nothing (ev : Evaluator) (head : Node) (args : List (Arg Node)) (env : FrameId) (f : Function) :
    f.applySparing nothing ev head args env = f.apply ev head args env := by
  unfold Function.applySparing
  split
  · exact assignSparing_nothing ev env args
  · rfl

theorem evalSparing_nothing (depth : Nat) : evalSparing nothing depth = eval depth := by
  induction depth with
  | zero => rfl
  | succ depth ih =>
    funext x env
    rw [evalSparing, eval, evalStep_eq_with, evalStepWith_eq_by, ih]
    simp only [applySparing_nothing, apply_eq_with]

/-- Evaluation leaves frames and contexts in place, and binds names to values only. -/
theorem evolves_of_ends_eval {depth : Nat} {x : Node} {env : FrameId} {r : Except Error Value}
    (h : (eval depth x env).Ends s r s') : Evolves nothing s s' := by
  have hspares : Spares nothing (eval depth x env) (evalSparing nothing depth x env) := spares_eval depth x env
  rw [evalSparing_nothing] at hspares
  exact hspares.between h

theorem evolves_of_ends_force {depth : Nat} {id : PromiseId} {r : Except Error Value}
    (h : (force (eval depth) id).Ends s r s') : Evolves nothing s s' := by
  have hspares : Spares nothing (force (eval depth) id) (force (evalSparing nothing depth) id) :=
    spares_force (spares_eval depth) id
  rw [evalSparing_nothing] at hspares
  exact hspares.between h

/-! ## What assignments do -/

/-- Forbids one assignment. -/
def only (id : FrameId) (name : String) (v : Value) : FrameId → String → Value → Prop :=
  fun id' name' v' => id' = id ∧ name' = name ∧ v' = v

/-- A binding that has changed is a value that an assignment put there: evaluation that is cut off
before that assignment does not end. -/
theorem exists_value_of_changed {depth : Nat} {x : Node} {env : FrameId} {r : Except Error Value} {id : FrameId}
    {f f' : Frame} {name : String} (h : (eval depth x env).Ends s r s') (hf : s.store.frames[id]? = some f)
    (hf' : s'.store.frames[id]? = some f') (hne : f'.binding? name ≠ f.binding? name) :
    ∃ v, f'.binding? name = some (.value v) ∧
      ∀ r t, ¬ (evalSparing (only id name v) depth x env).Ends s r t := by
  have hgrown {forbidden : FrameId → String → Value → Prop} (hevolves : Evolves forbidden s s') :
      ∃ v, f'.binding? name = some (.value v) ∧ ¬ forbidden id name v := by
    obtain ⟨g, hg, hgrown⟩ := hevolves.frame id f hf
    rw [hf'] at hg
    cases hg
    exact (hgrown.binding name).resolve_left hne
  obtain ⟨v, hv, _⟩ := hgrown (evolves_of_ends_eval h)
  refine ⟨v, hv, ?_⟩
  have hspares : Spares (only id name v) (eval depth x env) (evalSparing (only id name v) depth x env) :=
    spares_eval depth x env
  rcases hspares s r s' h with hcut | ⟨_, hevolves⟩
  · exact hcut
  · -- Had it ended, the frame would have got its binding without the one assignment of it.
    obtain ⟨w, hw, hnot⟩ := hgrown hevolves
    rw [hv] at hw
    cases hw
    exact absurd ⟨rfl, rfl, rfl⟩ hnot

/-! ## The base environment -/

theorem spares_forM {f : α → Run Unit} (hf : ∀ a, Spares forbidden (f a) (f a)) (as : List α) :
    Spares forbidden (as.forM f) (as.forM f) := by
  induction as with
  | nil => exact (sparing forbidden).pure _
  | cons a as ih => exact (hf a).bind fun _ => ih

/-- Making a base environment leaves the frames there are alone. -/
theorem evolves_of_ends_newBase {r : Except Error FrameId} (h : newBase.Ends s r s') : Evolves nothing s s' := by
  have hbind (env : FrameId) (name : String) {make : Run Function} (hmake : Spares nothing make make) :
      Spares nothing (bindNew env name make) (bindNew env name make) :=
    hmake.bind fun f => UnlessCut.refl fun s r s' h => by
      rw [(ends_modifyStore.1 h).2]
      exact .assign id
  have hbase : Spares nothing newBase newBase :=
    Spares.bind (sparing nothing).newRoot fun env =>
      (spares_forM (fun _ => hbind env _ ((sparing nothing).newFunction.bind fun _ => (sparing nothing).pure _)) _).bind
        fun _ =>
      (spares_forM (fun _ => hbind env _ ((sparing nothing).newFunction.bind fun _ => (sparing nothing).pure _)) _).bind
        fun _ => (sparing nothing).pure env
  exact hbase.between h

/-- States that come about by making base environments, by evaluation and forcing, and by entering the
bodies of closures. -/
inductive Arises : State → Prop
  | start : Arises .empty
  | base {s s' r} : Arises s → newBase.Ends s r s' → Arises s'
  | eval {s s' depth x env r} : Arises s → (eval depth x env).Ends s r s' → Arises s'
  | force {s s' depth id r} : Arises s → (force (eval depth) id).Ends s r s' → Arises s'
  | enter {s s' c head args env r} : Arises s → (Closure.enter c head args env).Ends s r s' → Arises s'

theorem Arises.tailsMade (h : Arises s) : TailsMade s := by
  induction h with
  | start => exact ⟨fun _ _ _ _ hf => (by cases hf), fun _ _ _ hc => (by cases hc)⟩
  | base _ h ih => exact (evolves_of_ends_newBase h).tails ih
  | eval _ h ih => exact (evolves_of_ends_eval h).tails ih
  | force _ h ih => exact (evolves_of_ends_force h).tails ih
  | enter _ h ih => exact (tailsMade_of_ends_enter h ih)

end

end Quotation
