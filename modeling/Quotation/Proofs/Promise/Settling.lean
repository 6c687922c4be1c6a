import Quotation.Proofs.Run.Outcome
/-!
# Promises before and after

What becomes of the promises of a store while something is evaluated. `Later` is what
holds between any two moments: promises are added, and an expression, its environment
and a value that is there stay. `Settled` is what holds from the start of an evaluation to
its end: besides, the marks are as they were, and a marked promise has got no value.
-/

namespace Quotation

namespace Store

/-! ## The table of promises -/

theorem promise_modifyPromise (s : Store) (id : PromiseId) (f : Promise → Promise) (other : PromiseId) :
    (s.modifyPromise id f).promise other =
      if other = id ∧ id < s.promises.size then f (s.promise other) else s.promise other := by
  simp only [promise, modifyPromise, Array.getD_eq_getD_getElem?, Array.getElem?_modify]
  by_cases h : id = other
  · subst h
    by_cases hlt : id < s.promises.size <;> simp [hlt]
  · simp [h, Ne.symm h]

theorem promise_of_size_le {s : Store} {id : PromiseId} (h : s.promises.size ≤ id) :
    s.promise id = ⟨.missing, 0, none, false⟩ := by
  simp [promise, Array.getD_eq_getD_getElem?, h]

theorem promise_newPromise (s : Store) (expr : Node) (env : FrameId) (id : PromiseId) :
    (s.newPromise expr env).2.promise id =
      if id = s.promises.size then ⟨expr, env, none, false⟩ else s.promise id := by
  simp only [promise, newPromise, Array.getD_eq_getD_getElem?, Array.getElem?_push]
  split
  · rfl
  · rfl

/-- A new promise has no value, as a number that was not given out has none. -/
theorem newPromise_value (s : Store) (expr : Node) (env : FrameId) (id : PromiseId) :
    ((s.newPromise expr env).2.promise id).value = (s.promise id).value := by
  rw [promise_newPromise]
  split
  · subst id
    rw [promise_of_size_le (Nat.le_refl _)]
  · rfl

theorem newPromise_forcing (s : Store) (expr : Node) (env : FrameId) (id : PromiseId) :
    ((s.newPromise expr env).2.promise id).forcing = (s.promise id).forcing := by
  rw [promise_newPromise]
  split
  · subst id
    rw [promise_of_size_le (Nat.le_refl _)]
  · rfl

end Store

namespace State

def modifyPromise (s : State) (id : PromiseId) (f : Promise → Promise) : State :=
  { s with store := s.store.modifyPromise id f }

/-- Marks a promise as being evaluated, or takes the mark away. -/
def mark (s : State) (id : PromiseId) (forcing : Bool) : State := s.modifyPromise id fun p => { p with forcing }

/-- Gives a promise its value. -/
def fill (s : State) (id : PromiseId) (v : Value) : State := s.modifyPromise id fun p => { p with value := some v }

/-- The promise of a number. -/
abbrev promise (s : State) (id : PromiseId) : Promise := s.store.promise id

/-- The number has been given out to a promise. -/
abbrev HasPromise (s : State) (id : PromiseId) : Prop := id < s.store.promises.size

variable {s : State} {id other : PromiseId} {f : Promise → Promise} {b : Bool} {v : Value}

theorem promise_of_not_has (h : ¬ s.HasPromise id) : s.promise id = ⟨.missing, 0, none, false⟩ :=
  Store.promise_of_size_le (Nat.le_of_not_lt h)

theorem hasPromise_of_value (h : (s.promise id).value = some v) : s.HasPromise id := by
  refine Decidable.by_contra fun hn => ?_
  rw [promise_of_not_has hn] at h
  cases h

theorem modifyPromise_of_not_has (h : ¬ s.HasPromise id) : s.modifyPromise id f = s := by
  have hsame : s.store.promises.modify id f = s.store.promises := by
    apply Array.toList_inj.1
    rw [Array.toList_modify, List.modify_eq_self (Nat.le_of_not_lt h)]
  unfold modifyPromise Store.modifyPromise
  rw [hsame]

@[simp] theorem modifyPromise_hasPromise : (s.modifyPromise id f).HasPromise other ↔ s.HasPromise other := by
  simp [modifyPromise, Store.modifyPromise]

theorem modifyPromise_promise (h : other ≠ id) : (s.modifyPromise id f).promise other = s.promise other := by
  simp [promise, modifyPromise, Store.promise_modifyPromise, h]

theorem modifyPromise_promise_self (h : s.HasPromise id) : (s.modifyPromise id f).promise id = f (s.promise id) := by
  simp [promise, modifyPromise, Store.promise_modifyPromise, h]

theorem mark_of_not_has (h : ¬ s.HasPromise id) : s.mark id b = s := modifyPromise_of_not_has h

theorem mark_hasPromise : (s.mark id b).HasPromise other ↔ s.HasPromise other := modifyPromise_hasPromise

theorem mark_promise (h : other ≠ id) : (s.mark id b).promise other = s.promise other := modifyPromise_promise h

theorem mark_promise_self (h : s.HasPromise id) :
    (s.mark id b).promise id = { s.promise id with forcing := b } := modifyPromise_promise_self h

theorem fill_promise (h : other ≠ id) : (s.fill id v).promise other = s.promise other := modifyPromise_promise h

theorem fill_promise_self (h : s.HasPromise id) :
    (s.fill id v).promise id = { s.promise id with value := some v } := modifyPromise_promise_self h

end State

/-! ## Later states -/

/-- Promises are added, and what there is to know about one stays. -/
structure Later (s s' : State) : Prop where
  given : ∀ id, s.HasPromise id → s'.HasPromise id
  same : ∀ id, s.HasPromise id → (s'.promise id).expr = (s.promise id).expr ∧ (s'.promise id).env = (s.promise id).env
  kept : ∀ id v, (s.promise id).value = some v → (s'.promise id).value = some v

namespace Later

variable {s t s' : State} {id : PromiseId}

theorem of_promises_eq (h : s'.store.promises = s.store.promises) : Later s s' := by
  have hp (id : PromiseId) : s'.promise id = s.promise id := by
    unfold State.promise Store.promise
    rw [h]
  exact ⟨fun id hid => by rwa [State.HasPromise, h], fun id _ => by rw [hp]; exact ⟨rfl, rfl⟩,
    fun id v hv => by rwa [hp]⟩

theorem refl (s : State) : Later s s := of_promises_eq rfl

theorem trans (h : Later s t) (h' : Later t s') : Later s s' where
  given id hid := h'.given id (h.given id hid)
  same id hid := by
    obtain ⟨hexpr, henv⟩ := h.same id hid
    obtain ⟨hexpr', henv'⟩ := h'.same id (h.given id hid)
    exact ⟨hexpr'.trans hexpr, henv'.trans henv⟩
  kept id v hv := h'.kept id v (h.kept id v hv)

/-- A promise is changed, but not what there is to know about it. -/
theorem modifyPromise {f : Promise → Promise} (hexpr : ∀ p, (f p).expr = p.expr) (henv : ∀ p, (f p).env = p.env)
    (hvalue : ∀ v, (s.promise id).value = some v → (f (s.promise id)).value = some v) :
    Later s (s.modifyPromise id f) where
  given _ hid := State.modifyPromise_hasPromise.2 hid
  same other hother := by
    by_cases h : other = id
    · subst h
      rw [State.modifyPromise_promise_self hother]
      exact ⟨hexpr _, henv _⟩
    · rw [State.modifyPromise_promise h]
      exact ⟨rfl, rfl⟩
  kept other v hv := by
    by_cases h : other = id
    · subst h
      rw [State.modifyPromise_promise_self (State.hasPromise_of_value hv)]
      exact hvalue v hv
    · rwa [State.modifyPromise_promise h]

theorem mark (s : State) (id : PromiseId) (b : Bool) : Later s (s.mark id b) :=
  modifyPromise (fun _ => rfl) (fun _ => rfl) fun _ hv => hv

theorem fill (v : Value) (hnone : (s.promise id).value = none) : Later s (s.fill id v) :=
  modifyPromise (fun _ => rfl) (fun _ => rfl) fun w hw => by
    rw [hnone] at hw
    cases hw

end Later

/-! ## Settled states -/

/-- What becomes of the promises from the start of an evaluation to its end. -/
structure Settled (s s' : State) : Prop where
  later : Later s s'
  marks : ∀ id, (s'.promise id).forcing = (s.promise id).forcing
  /-- a promise that is being evaluated meanwhile gets no value -/
  busy : ∀ id, (s.promise id).forcing = true → (s'.promise id).value = (s.promise id).value

namespace Settled

variable {s t s' : State}

theorem of_promises_eq (h : s'.store.promises = s.store.promises) : Settled s s' := by
  have hp (id : PromiseId) : s'.promise id = s.promise id := by
    unfold State.promise Store.promise
    rw [h]
  exact ⟨.of_promises_eq h, fun id => by rw [hp], fun id _ => by rw [hp]⟩

theorem refl (s : State) : Settled s s := of_promises_eq rfl

theorem trans (h : Settled s t) (h' : Settled t s') : Settled s s' where
  later := h.later.trans h'.later
  marks id := (h'.marks id).trans (h.marks id)
  busy id hid := (h'.busy id ((h.marks id).trans hid)).trans (h.busy id hid)

/-- A new promise has no value and is not marked. -/
theorem newPromise (s : State) (expr : Node) (env : FrameId) :
    Settled s { s with store := (s.store.newPromise expr env).2 } := by
  refine ⟨⟨fun id hid => ?_, fun id hid => ?_, fun id v hv => ?_⟩, fun id => ?_, fun id _ => ?_⟩
  · simp only [State.HasPromise, Store.newPromise, Array.size_push]
    exact Nat.lt_succ_of_lt hid
  · rw [State.promise, Store.promise_newPromise, if_neg (Nat.ne_of_lt hid)]
    exact ⟨rfl, rfl⟩
  · exact (Store.newPromise_value s.store expr env id).trans hv
  · exact Store.newPromise_forcing s.store expr env id
  · exact Store.newPromise_value s.store expr env id

/-! ## Forcing a promise -/

variable {id : PromiseId} (hid : s.HasPromise id) (hnone : (s.promise id).value = none)
  (hmark : (s.promise id).forcing = false) (h : Settled (s.mark id true) t)

include hid hnone h in
/-- The promise that is evaluated has no value when its evaluation ends. -/
theorem value_eq_none : (t.promise id).value = none := by
  have hmarked : ((s.mark id true).promise id).forcing = true := by rw [State.mark_promise_self hid]
  rw [h.busy id hmarked, State.mark_promise_self hid]
  exact hnone

include hid hmark h in
/-- The mark is taken away again after the evaluation of a promise. -/
theorem unmark : Settled s (t.mark id false) := by
  have ht : t.HasPromise id := h.later.given id (State.mark_hasPromise.2 hid)
  refine ⟨((Later.mark s id true).trans h.later).trans (.mark t id false), fun other => ?_, fun other hother => ?_⟩
  · by_cases ho : other = id
    · subst ho
      rw [State.mark_promise_self ht, hmark]
    · rw [State.mark_promise ho, h.marks, State.mark_promise ho]
  · have ho : other ≠ id := by
      rintro rfl
      rw [hmark] at hother
      cases hother
    rw [State.mark_promise ho, h.busy other (by rwa [State.mark_promise ho]), State.mark_promise ho]

include hid hnone hmark h in
/-- A promise gets its value after its evaluation, when the mark is taken away. -/
theorem fill (v : Value) : Settled s ((t.mark id false).fill id v) := by
  have hunmark := h.unmark hid hmark
  have ht : (t.mark id false).HasPromise id := hunmark.later.given id hid
  have htnone : ((t.mark id false).promise id).value = none := by
    rw [State.mark_promise_self (State.mark_hasPromise.1 ht)]
    exact h.value_eq_none hid hnone
  refine ⟨hunmark.later.trans (.fill v htnone), fun other => ?_, fun other hother => ?_⟩
  · rw [← hunmark.marks]
    by_cases ho : other = id
    · subst ho
      rw [State.fill_promise_self ht]
    · rw [State.fill_promise ho]
  · have ho : other ≠ id := by
      rintro rfl
      rw [hmark] at hother
      cases hother
    rw [State.fill_promise ho, hunmark.busy other hother]

end Settled

end Quotation
