import Quotation.State.Run
/-!
# How runs end

`x.Ends s r s'` says that the run `x`, started in `s`, ends in `s'` with the
outcome `r`, which is a value or a failure. A run that is cut off does not end.

The lemmas say when each kind of run ends and how. `ends_bind` takes a run of two
parts apart: the first part failed, or the second one went on from where the
first one ended.
-/

namespace Quotation

/-- The state with one more event in its log. -/
def State.logging (s : State) (e : Event) : State := { s with log := s.log.push e }

/-- The state of one environment, with these bindings. -/
def State.ofBindings (bindings : List (String × Binding)) : State :=
  { State.empty with store := { Store.empty with frames := #[⟨none, bindings, none⟩] } }

namespace Run

variable {α β : Type} {s s' : State}

def Ends (x : Run α) (s : State) (r : Except Error α) (s' : State) : Prop := x.run.run s = some (r, s')

theorem Ends.unique {x : Run α} {r r' : Except Error α} {t : State} (h : x.Ends s r s') (h' : x.Ends s r' t) :
    r = r' ∧ s' = t := by
  have := h.symm.trans h'
  simpa using this

/-! ## Sequences -/

theorem run_bind (x : Run α) (f : α → Run β) (s : State) :
    (x >>= f).run.run s = match x.run.run s with
      | some (.ok a, t) => (f a).run.run t
      | some (.error e, t) => some (.error e, t)
      | none => none := by
  rw [ExceptT.run_bind, StateT.run_bind]
  rcases x.run.run s with _ | ⟨_ | _, _⟩ <;> rfl

theorem run_bind_of_ends {x : Run α} {f : α → Run β} {a : α} (h : x.Ends s (.ok a) s') :
    (x >>= f).run.run s = (f a).run.run s' := by
  rw [run_bind, h]

theorem ends_bind {x : Run α} {f : α → Run β} {r : Except Error β} :
    (x >>= f).Ends s r s' ↔ (∃ a t, x.Ends s (.ok a) t ∧ (f a).Ends t r s') ∨
      ∃ e, x.Ends s (.error e) s' ∧ r = .error e := by
  unfold Ends
  rw [run_bind]
  rcases x.run.run s with _ | ⟨e | a, t⟩
  · simp
  · simp only [Option.some.injEq, Prod.mk.injEq, reduceCtorEq, false_and, exists_false, false_or,
      Except.error.injEq]
    exact ⟨fun ⟨h, ht⟩ => ⟨e, ⟨rfl, ht⟩, h.symm⟩, fun ⟨_, ⟨he, ht⟩, h⟩ => ⟨by rw [h, he], ht⟩⟩
  · simp only [Option.some.injEq, Prod.mk.injEq, Except.ok.injEq, reduceCtorEq, false_and, exists_false, or_false]
    exact ⟨fun h => ⟨a, t, ⟨rfl, rfl⟩, h⟩, fun ⟨_, _, ⟨ha, ht⟩, h⟩ => ha ▸ ht ▸ h⟩

theorem ends_bind_ok {x : Run α} {f : α → Run β} {b : β} :
    (x >>= f).Ends s (.ok b) s' ↔ ∃ a t, x.Ends s (.ok a) t ∧ (f a).Ends t (.ok b) s' := by
  simp [ends_bind]

theorem ends_bind_error {x : Run α} {f : α → Run β} {e : Error} :
    (x >>= f).Ends s (.error e) s' ↔
      (∃ a t, x.Ends s (.ok a) t ∧ (f a).Ends t (.error e) s') ∨ x.Ends s (.error e) s' := by
  simp [ends_bind]

@[simp] theorem ends_pure {a : α} {r : Except Error α} :
    (pure a : Run α).Ends s r s' ↔ r = .ok a ∧ s' = s := by
  show some (Except.ok a, s) = some (r, s') ↔ _
  simp [eq_comm]

/-! ## Failures -/

@[simp] theorem ends_throw {e : Error} {r : Except Error α} :
    (throw e : Run α).Ends s r s' ↔ r = .error e ∧ s' = s := by
  show some (Except.error e, s) = some (r, s') ↔ _
  simp [eq_comm]

@[simp] theorem ends_fail {c : Cause} {r : Except Error α} :
    (fail c : Run α).Ends s r s' ↔ r = .error (.of c) ∧ s' = s := ends_throw

@[simp] theorem ends_failAt {c : Cause} {path : Path} {r : Except Error α} :
    (failAt c path : Run α).Ends s r s' ↔ r = .error (.atPath c path) ∧ s' = s := ends_throw

@[simp] theorem not_ends_cutOff {r : Except Error α} : ¬ (cutOff : Run α).Ends s r s' := nofun

@[simp] theorem ends_ofExcept {x r : Except Error α} : (ofExcept x).Ends s r s' ↔ r = x ∧ s' = s := by
  cases x
  · exact ends_throw
  · exact ends_pure

theorem ends_mapOutcome {x : Run α} {g : Except Error α → Except Error β} {r : Except Error β} :
    Ends (ExceptT.mk (x.run >>= fun q => pure (g q))) s r s' ↔ ∃ q, x.Ends s q s' ∧ r = g q := by
  show (x.run >>= fun q => pure (g q)).run s = some (r, s') ↔ _
  unfold Ends
  rw [StateT.run_bind]
  rcases x.run.run s with _ | ⟨q, t⟩
  · simp
  · show some (g q, t) = _ ↔ _
    simp only [Option.some.injEq, Prod.mk.injEq]
    exact ⟨fun ⟨h, e⟩ => ⟨q, ⟨rfl, e⟩, h.symm⟩, fun ⟨_, ⟨e, e'⟩, h⟩ => ⟨by rw [h, e], e'⟩⟩

theorem ends_explain {c : Cause} {path : Path} {x : Run α} {r : Except Error α} :
    (x.explain c path).Ends s r s' ↔ ∃ q, x.Ends s q s' ∧ r = q.mapError (.causedBy c path) :=
  ends_mapOutcome

theorem ends_attempt {x : Run α} {r : Except Error (Except Error α)} :
    x.attempt.Ends s r s' ↔ ∃ q, x.Ends s q s' ∧ r = .ok q :=
  ends_mapOutcome (g := .ok)

theorem run_explain_bind (c : Cause) (path : Path) (x : Run α) (f : α → Run β) (s : State) :
    (x.explain c path >>= f).run.run s = match x.run.run s with
      | some (.ok a, t) => (f a).run.run t
      | some (.error e, t) => some (.error (.causedBy c path e), t)
      | none => none := by
  rw [run_bind]
  show (match (x.run >>= fun q => pure (q.mapError (Error.causedBy c path))).run s with
    | some (.ok a, t) => (f a).run.run t
    | some (.error e, t) => some (.error e, t)
    | none => none) = _
  rw [StateT.run_bind]
  rcases x.run.run s with _ | ⟨_ | _, _⟩ <;> rfl

/-- What is recorded first never fails. -/
theorem explain_record_bind (c : Cause) (path : Path) (e : Event) (f : Unit → Run α) :
    (record e >>= f).explain c path = record e >>= fun u => (f u).explain c path := rfl

theorem ends_explain_bind {c : Cause} {path : Path} {x : Run α} {f : α → Run β} {r : Except Error β} :
    (x.explain c path >>= f).Ends s r s' ↔ (∃ a t, x.Ends s (.ok a) t ∧ (f a).Ends t r s') ∨
      ∃ e, x.Ends s (.error e) s' ∧ r = .error (.causedBy c path e) := by
  simp only [ends_bind, ends_explain]
  constructor
  · rintro (⟨a, t, ⟨q, hx, hq⟩, hf⟩ | ⟨e, ⟨q, hx, hq⟩, rfl⟩)
    · cases q <;> cases hq
      exact .inl ⟨a, t, hx, hf⟩
    · cases q <;> cases hq
      exact .inr ⟨_, hx, rfl⟩
  · rintro (⟨a, t, hx, hf⟩ | ⟨e, hx, rfl⟩)
    · exact .inl ⟨a, t, ⟨_, hx, rfl⟩, hf⟩
    · exact .inr ⟨_, ⟨_, hx, rfl⟩, rfl⟩

/-! ## The state -/

@[simp] theorem ends_store {r : Except Error Store} :
    store.Ends s r s' ↔ r = .ok s.store ∧ s' = s := by
  show some (Except.ok s.store, s) = some (r, s') ↔ _
  simp [eq_comm]

@[simp] theorem ends_modifyStore {f : Store → Store} {r : Except Error Unit} :
    (modifyStore f).Ends s r s' ↔ r = .ok () ∧ s' = { s with store := f s.store } := by
  show some (Except.ok (), { s with store := f s.store }) = some (r, s') ↔ _
  simp [eq_comm]

@[simp] theorem ends_make {f : Store → α × Store} {r : Except Error α} :
    (make f).Ends s r s' ↔ r = .ok (f s.store).1 ∧ s' = { s with store := (f s.store).2 } := by
  show some (Except.ok (f s.store).1, { s with store := (f s.store).2 }) = some (r, s') ↔ _
  simp [eq_comm]

@[simp] theorem ends_record {e : Event} {r : Except Error Unit} :
    (record e).Ends s r s' ↔ r = .ok () ∧ s' = s.logging e := by
  show some (Except.ok (), s.logging e) = some (r, s') ↔ _
  simp [eq_comm]

theorem ends_store_bind {f : Store → Run β} {r : Except Error β} :
    (store >>= f).Ends s r s' ↔ (f s.store).Ends s r s' := by
  unfold Ends
  rw [run_bind]
  rfl

theorem ends_modifyStore_bind {g : Store → Store} {f : Unit → Run β} {r : Except Error β} :
    (modifyStore g >>= f).Ends s r s' ↔ (f ()).Ends { s with store := g s.store } r s' := by
  unfold Ends
  rw [run_bind]
  rfl

theorem ends_make_bind {g : Store → α × Store} {f : α → Run β} {r : Except Error β} :
    (make g >>= f).Ends s r s' ↔ (f (g s.store).1).Ends { s with store := (g s.store).2 } r s' := by
  unfold Ends
  rw [run_bind]
  rfl

theorem ends_attempt_bind {x : Run α} {f : Except Error α → Run β} {r : Except Error β} :
    (x.attempt >>= f).Ends s r s' ↔ ∃ q t, x.Ends s q t ∧ (f q).Ends t r s' := by
  rw [ends_bind]
  constructor
  · rintro (⟨q, t, hq, hf⟩ | ⟨e, he, _⟩)
    · obtain ⟨q', hx, hok⟩ := ends_attempt.1 hq
      cases hok
      exact ⟨q, t, hx, hf⟩
    · obtain ⟨_, _, hbad⟩ := ends_attempt.1 he
      cases hbad
  · rintro ⟨q, t, hx, hf⟩
    exact .inl ⟨q, t, ends_attempt.2 ⟨q, hx, rfl⟩, hf⟩

theorem ends_ofExcept_bind {x : Except Error α} {f : α → Run β} {r : Except Error β} :
    (ofExcept x >>= f).Ends s r s' ↔ match x with
      | .ok a => (f a).Ends s r s'
      | .error e => r = .error e ∧ s' = s := by
  unfold Ends
  rw [run_bind]
  cases x with
  | ok a => rfl
  | error e =>
    show some (Except.error e, s) = some (r, s') ↔ _
    simp [eq_comm]

theorem ends_record_bind {e : Event} {f : Unit → Run β} {r : Except Error β} :
    (record e >>= f).Ends s r s' ↔ (f ()).Ends (s.logging e) r s' := by
  unfold Ends
  rw [run_bind]
  rfl

/-! ## Runs that may be cut off -/

/-- Where the first run ends, the second one is cut off, or ends alike and something holds
between the states. -/
def UnlessCut (P : State → State → Prop) (x y : Run α) : Prop :=
  ∀ s r s', x.Ends s r s' → (∀ r t, ¬ y.Ends s r t) ∨ (y.Ends s r s' ∧ P s s')

namespace UnlessCut

variable {P : State → State → Prop}

theorem refl {x : Run α} (h : ∀ s r s', x.Ends s r s' → P s s') : UnlessCut P x x :=
  fun s r s' hx => .inr ⟨hx, h s r s' hx⟩

theorem cutOff {x : Run α} : UnlessCut P x cutOff := fun _ _ _ _ => .inl fun _ _ => not_ends_cutOff

theorem bind {x y : Run α} {f g : α → Run β} (htrans : ∀ {s t s'}, P s t → P t s' → P s s') (hx : UnlessCut P x y)
    (hf : ∀ a, UnlessCut P (f a) (g a)) : UnlessCut P (x >>= f) (y >>= g) := by
  intro s r s' h
  rcases ends_bind.1 h with ⟨a, t, ha, h⟩ | ⟨e, he, rfl⟩
  · rcases hx s _ t ha with hcut | ⟨hya, hset⟩
    · exact .inl fun r u hy => (ends_bind.1 hy).elim (fun ⟨_, _, hy, _⟩ => hcut _ _ hy) fun ⟨_, hy, _⟩ => hcut _ _ hy
    · rcases hf a t r s' h with hcut | ⟨hg, hset'⟩
      · refine .inl fun q u hy => ?_
        rcases ends_bind.1 hy with ⟨b, w, hyb, hg⟩ | ⟨e, hye, _⟩
        · obtain ⟨hab, rfl⟩ := hya.unique hyb
          cases hab
          exact hcut _ _ hg
        · cases (hya.unique hye).1
      · exact .inr ⟨ends_bind.2 (.inl ⟨a, t, hya, hg⟩), htrans hset hset'⟩
  · rcases hx s _ s' he with hcut | ⟨hye, hset⟩
    · exact .inl fun r u hy => (ends_bind.1 hy).elim (fun ⟨_, _, hy, _⟩ => hcut _ _ hy) fun ⟨_, hy, _⟩ => hcut _ _ hy
    · exact .inr ⟨ends_bind.2 (.inr ⟨e, hye, rfl⟩), hset⟩

theorem explain {x y : Run α} (cause : Cause) (path : Path) (hx : UnlessCut P x y) :
    UnlessCut P (x.explain cause path) (y.explain cause path) := by
  intro s r s' h
  obtain ⟨q, hq, rfl⟩ := ends_explain.1 h
  rcases hx s q s' hq with hcut | ⟨hy, hset⟩
  · refine .inl fun r t hy => ?_
    obtain ⟨q', hq', _⟩ := ends_explain.1 hy
    exact hcut _ _ hq'
  · exact .inr ⟨ends_explain.2 ⟨q, hy, rfl⟩, hset⟩

/-- Between the ends of a run that is not cut off. -/
theorem between {x : Run α} {r : Except Error α} (hx : UnlessCut P x x) (h : x.Ends s r s') : P s s' := by
  rcases hx s r s' h with hcut | ⟨_, hset⟩
  · exact absurd h (hcut r s')
  · exact hset

end UnlessCut

end Run

end Quotation
