import Quotation.Proofs.Eval.Supplied
/-!
# Entries of argument lists

Arguments are delayed, evaluated or listed as expressions, and each time the entries of the tail are
put in for `...`. The three are one loop with other steps (`spread`): whatever the steps do, they
give the entries that the arguments supply, under the same names (`Spreads.names`). An
environment that has no tail gets none while arguments are evaluated (`Evolves.tail_of_get?`), so a
loop over `...` fails then.
-/

namespace Quotation

open Run

variable {s₀ s t : State} {env : FrameId}

/-! ## Bindings later on -/

/-- The frames of an environment, from the inside out, are all there. -/
def State.HasEnv (s : State) (env : FrameId) : Prop := ∀ id ∈ s.store.chain env, id < s.store.frames.size

theorem findSome?_eq_or {α β : Type} {P : β → Prop} {f g : α → Option β} {l : List α}
    (h : ∀ a ∈ l, g a = f a ∨ ∃ b, g a = some b ∧ P b) :
    l.findSome? g = l.findSome? f ∨ ∃ b, l.findSome? g = some b ∧ P b := by
  induction l with
  | nil => exact .inl rfl
  | cons a l ih =>
    obtain ⟨ha, hl⟩ := List.forall_mem_cons.1 h
    rw [List.findSome?_cons, List.findSome?_cons]
    rcases ha with hsame | ⟨b, hb, hP⟩
    · rw [hsame]
      cases f a with
      | none => exact ih hl
      | some b => exact .inl rfl
    · rw [hb]
      exact .inr ⟨b, rfl, hP⟩

namespace Evolves

variable {forbidden : FrameId → String → Value → Prop}

theorem chainUpTo_eq (h : Evolves forbidden s t) (n : Nat) (env : FrameId)
    (hthere : ∀ id ∈ s.store.chainUpTo n env, id < s.store.frames.size) :
    t.store.chainUpTo n env = s.store.chainUpTo n env := by
  induction n generalizing env with
  | zero => rfl
  | succ n ih =>
    rw [Store.chainUpTo] at hthere
    obtain ⟨hlt, houter⟩ := List.forall_mem_cons.1 hthere
    have hf := Array.getElem?_eq_getElem hlt
    obtain ⟨f', hf', hgrown⟩ := h.frame env _ hf
    have hparent : t.store.parent? env = s.store.parent? env := by simp [Store.parent?, hf, hf', hgrown.parent]
    rw [Store.chainUpTo, Store.chainUpTo, hparent]
    cases hp : s.store.parent? env with
    | none => rfl
    | some p =>
      rw [hp] at houter
      exact congrArg (env :: ·) (ih p houter)

/-- A name keeps what it is bound to, or is bound to a value, in its frame or in one further in. -/
theorem get?_eq_or (h : Evolves forbidden s t) (henv : s.HasEnv env) (name : String) :
    t.store.get? env name = s.store.get? env name ∨ ∃ b, t.store.get? env name = some b ∧ ∃ v, b = .value v := by
  rw [Store.get?, Store.get?, Store.chain, Store.chain, h.chainUpTo_eq _ _ henv]
  refine findSome?_eq_or fun id hid => ?_
  have hf := Array.getElem?_eq_getElem (henv id hid)
  obtain ⟨f', hf', hgrown⟩ := h.frame id _ hf
  rw [hf, hf', Option.bind_some, Option.bind_some]
  rcases hgrown.binding name with hsame | ⟨v, hv, _⟩
  · exact .inl hsame
  · exact .inr ⟨_, hv, v, rfl⟩

/-- A tail that is found later was there before. -/
theorem tail_of_get? (h : Evolves forbidden s t) (henv : s.HasEnv env) {tail : List (Arg PromiseId)}
    (htail : t.store.get? env tailName = some (.tail tail)) : s.store.get? env tailName = some (.tail tail) := by
  rcases h.get?_eq_or henv tailName with hsame | ⟨b, hb, v, rfl⟩
  · rw [← hsame, htail]
  · rw [hb] at htail
    cases htail

end Evolves

/-! ## One loop for all three -/

section
variable {β : Type}

/-- The entries for one argument, by one step for the tail in place of `...` and another one for all
other arguments. -/
def entriesOf (env : FrameId) (tailStep : List (Arg PromiseId) → Run (List (Arg β)))
    (step : Arg Node → Run (List (Arg β))) (a : Arg Node) : Run (List (Arg β)) :=
  if a.isTail then tailOf env >>= tailStep else step a

/-- The entries for all arguments, in order. -/
def spread (env : FrameId) (tailStep : List (Arg PromiseId) → Run (List (Arg β)))
    (step : Arg Node → Run (List (Arg β))) : List (Arg Node) → Run (List (Arg β))
  | [] => return []
  | a :: as => return (← entriesOf env tailStep step a) ++ (← spread env tailStep step as)

theorem evalArgs_eq_spread (ev : Evaluator) (env : FrameId) (args : List (Arg Node)) :
    evalArgs ev env args = spread env (forceAll ev) (fun a => do return [⟨a.name, ← ev a.value env⟩]) args := by
  induction args with
  | nil => rfl
  | cons a as ih =>
    rw [evalArgs, spread, entriesOf, ih]
    cases a.isTail <;> simp

theorem delayArgs_eq_spread (env : FrameId) (args : List (Arg Node)) : delayArgs env args =
    spread env pure (fun a => do return [⟨a.name, ← Run.make (·.newPromise a.value env)⟩]) args := by
  induction args with
  | nil => rfl
  | cons a as ih =>
    rw [delayArgs, spread, entriesOf, ih]
    cases a.isTail <;> simp

/-- Arguments without markers are listed as they are. -/
theorem exprsList_eq_spread {args : List (Arg Node)} (hfree : Node.anyMarkers args = false) (ev : Evaluator)
    (env : FrameId) : Special.exprsList ev env args = spread env tailExprs (fun a => pure [a]) args := by
  induction args with
  | nil => rfl
  | cons a as ih =>
    obtain ⟨ha, has⟩ := List.forall_mem_cons.1 (Node.anyMarkers_eq_false_iff.1 hfree)
    have hone : Node.anyMarkers [a] = false := Node.anyMarkers_eq_false_iff.2 (by simpa using ha)
    have hquote : quoteExpanding ev env (.list [⟨a.name, a.value.render⟩]) = pure (.pairlist [a]) :=
      quoteExpanding_unmarked hone ev env
    have hexprs : Special.exprsOf ev env a = entriesOf env tailExprs (fun a => pure [a]) a := by
      rw [Special.exprsOf, entriesOf, hquote, pure_bind]
    rw [Special.exprsList, spread, hexprs, ih (Node.anyMarkers_eq_false_iff.2 has)]

theorem spread_append (env : FrameId) (tailStep : List (Arg PromiseId) → Run (List (Arg β)))
    (step : Arg Node → Run (List (Arg β))) (xs ys : List (Arg Node)) : spread env tailStep step (xs ++ ys) = (do
      let as ← spread env tailStep step xs
      let bs ← spread env tailStep step ys
      return as ++ bs) := by
  induction xs with
  | nil => simp [spread]
  | cons a xs ih => simp only [List.cons_append, spread, ih, bind_assoc, pure_bind, List.append_assoc]

end

/-! ## Names of entries -/

/-- In the environment `...` is bound to a tail. -/
def State.BindsTail (s : State) (env : FrameId) : Prop := ∃ tail, s.store.get? env tailName = some (.tail tail)

theorem State.supplied_cons (s : State) (env : FrameId) (a : Arg Node) (as : List (Arg Node)) :
    s.supplied env (a :: as) = s.supplied env [a] ++ s.supplied env as := by
  simp [State.supplied]

theorem State.supplied_tail {a : Arg Node} (ha : a.isTail = true) {tail : List (Arg PromiseId)}
    (htail : s.store.get? env tailName = some (.tail tail)) : s.supplied env [a] = s.tailExprs tail := by
  rw [State.supplied, List.flatMap_singleton, if_pos ha, State.forwarded_of_tail htail]

theorem State.supplied_other {a : Arg Node} (ha : a.isTail = false) : s.supplied env [a] = [a] := by
  rw [State.supplied, List.flatMap_singleton, if_neg (by simp [ha])]

theorem State.names_tailExprs (s : State) (tail : List (Arg PromiseId)) :
    (s.tailExprs tail).map (·.name) = tail.map (·.name) := by
  simp [State.tailExprs, Arg.map]

/-- The steps keep names, those of the tail and that of the argument, and bind names only to values. -/
structure Spreads {β : Type} (tailStep : List (Arg PromiseId) → Run (List (Arg β)))
    (step : Arg Node → Run (List (Arg β))) : Prop where
  tailNames : ∀ {tail s xs t}, (tailStep tail).Ends s (.ok xs) t → xs.map (·.name) = tail.map (·.name)
  name : ∀ {a s xs t}, (step a).Ends s (.ok xs) t → xs.map (·.name) = [a.name]
  tailSpares : ∀ tail, Spares nothing (tailStep tail) (tailStep tail)
  spares : ∀ a, Spares nothing (step a) (step a)

namespace Spreads

variable {β : Type} {tailStep : List (Arg PromiseId) → Run (List (Arg β))} {step : Arg Node → Run (List (Arg β))}
  {a : Arg Node} {args : List (Arg Node)} {xs : List (Arg β)}

theorem spares_entriesOf (h : Spreads tailStep step) (env : FrameId) (a : Arg Node) :
    Spares nothing (entriesOf env tailStep step a) (entriesOf env tailStep step a) := by
  unfold entriesOf
  split
  · exact ((sparing nothing).tailOf env).bind h.tailSpares
  · exact h.spares a

theorem spares_spread (h : Spreads tailStep step) (env : FrameId) (args : List (Arg Node)) :
    Spares nothing (spread env tailStep step args) (spread env tailStep step args) := by
  induction args with
  | nil => exact (sparing nothing).pure _
  | cons a as ih => exact (h.spares_entriesOf env a).bind fun _ => ih.bind fun _ => (sparing nothing).pure _

/-- The entries for one argument have the names of what it supplied at the start. -/
theorem names_entriesOf (h : Spreads tailStep step) (henv : s₀.HasEnv env) (hs : Evolves nothing s₀ s)
    (ha : (entriesOf env tailStep step a).Ends s (.ok xs) t) :
    (a.isTail = true → s₀.BindsTail env) ∧ xs.map (·.name) = (s₀.supplied env [a]).map (·.name) := by
  unfold entriesOf at ha
  split at ha
  · rename_i htail
    obtain ⟨tail, u, hget, ha⟩ := ends_bind_ok.1 ha
    have hbound := hs.tail_of_get? henv ((ends_tailOf hget).2 tail rfl)
    refine ⟨fun _ => ⟨tail, hbound⟩, ?_⟩
    rw [State.supplied_tail htail hbound, State.names_tailExprs, h.tailNames ha]
  · rename_i hother
    refine ⟨fun htail => absurd htail hother, ?_⟩
    rw [State.supplied_other (Bool.eq_false_iff.2 hother), h.name ha]
    rfl

/-- What the loop gives has the names of what the arguments supplied at the start, and if one of them
is `...`, then there was a tail. -/
theorem names (h : Spreads tailStep step) (henv : s₀.HasEnv env) (hs : Evolves nothing s₀ s)
    (hargs : (spread env tailStep step args).Ends s (.ok xs) t) :
    (∀ a ∈ args, a.isTail = true → s₀.BindsTail env) ∧ xs.map (·.name) = (s₀.supplied env args).map (·.name) := by
  induction args generalizing s t xs with
  | nil =>
    obtain ⟨hxs, _⟩ := ends_pure.1 hargs
    cases hxs
    exact ⟨nofun, rfl⟩
  | cons a as ih =>
    obtain ⟨here, u, ha, hrest⟩ := ends_bind_ok.1 hargs
    obtain ⟨rest, v, has, hlast⟩ := ends_bind_ok.1 hrest
    cases (ends_pure.1 hlast).1
    obtain ⟨hbound, hnames⟩ := h.names_entriesOf henv hs ha
    obtain ⟨hbounds, hrests⟩ := ih (hs.trans ((h.spares_entriesOf env a).between ha)) has
    refine ⟨List.forall_mem_cons.2 ⟨hbound, hbounds⟩, ?_⟩
    rw [State.supplied_cons, List.map_append, List.map_append, hnames, hrests]

/-- Where there was no tail, the loop fails at the first `...` that it gets to. -/
theorem ends_unbound (h : Spreads tailStep step) (henv : s₀.HasEnv env) (hs : Evolves nothing s₀ s)
    (hnone : ¬ s₀.BindsTail env) (hargs : (spread env tailStep step args).Ends s (.ok xs) t) (ha : a.isTail = true)
    (rest : List (Arg Node)) :
    (spread env tailStep step (args ++ a :: rest)).Ends s (.error (.of (.unbound tailName))) t := by
  have hnever : ∀ tail, t.store.get? env tailName ≠ some (.tail tail) := fun tail htail =>
    hnone ⟨tail, (hs.trans ((h.spares_spread env args).between hargs)).tail_of_get? henv htail⟩
  have htail : (tailOf env).Ends t (.error (.of (.unbound tailName))) t := by
    rw [tailOf, ends_store_bind]
    split
    · exact absurd ‹_› (hnever _)
    · exact ends_fail.2 ⟨rfl, rfl⟩
  rw [spread_append, spread, entriesOf, if_pos ha]
  refine ends_bind_error.2 (.inl ⟨xs, t, hargs, ends_bind_error.2 (.inr ?_)⟩)
  exact ends_bind_error.2 (.inr (ends_bind_error.2 (.inr htail)))

end Spreads

/-! ## The three loops -/

theorem names_of_ends_forceAll {ev : Evaluator} {tail : List (Arg PromiseId)} {vs : List (Arg Value)}
    (h : (forceAll ev tail).Ends s (.ok vs) t) : vs.map (·.name) = tail.map (·.name) := by
  induction tail generalizing s t vs with
  | nil =>
    cases (ends_pure.1 h).1
    rfl
  | cons a as ih =>
    obtain ⟨v, u, _, h⟩ := ends_bind_ok.1 h
    obtain ⟨rest, w, hrest, h⟩ := ends_bind_ok.1 h
    cases (ends_pure.1 h).1
    exact congrArg (a.name :: ·) (ih hrest)

theorem spreads_evalArgs (depth : Nat) (env : FrameId) :
    Spreads (forceAll (eval depth)) (fun a => do return [⟨a.name, ← eval depth a.value env⟩]) where
  tailNames := names_of_ends_forceAll
  name h := by
    obtain ⟨v, u, _, h⟩ := ends_bind_ok.1 h
    cases (ends_pure.1 h).1
    rfl
  tailSpares tail := by
    rw [forceAll_eq_with]
    exact (sparing nothing).forceAll (fun id => Run.UnlessCut.refl fun _ _ _ => evolves_of_ends_force) tail
  spares a := Spares.bind (Run.UnlessCut.refl fun _ _ _ => evolves_of_ends_eval) fun _ => (sparing nothing).pure _

theorem spreads_delayArgs (env : FrameId) :
    Spreads pure (fun a => do return [⟨a.name, ← Run.make (·.newPromise a.value env)⟩]) where
  tailNames h := by
    cases (ends_pure.1 h).1
    rfl
  name h := by
    rw [ends_make_bind] at h
    cases (ends_pure.1 h).1
    rfl
  tailSpares tail := (sparing nothing).pure tail
  spares a := ((sparing nothing).newPromise a.value env).bind fun _ => (sparing nothing).pure _

theorem spreads_exprs : Spreads tailExprs (fun a => pure [a]) where
  tailNames h := by
    rw [tailExprs, ends_store_bind] at h
    cases (ends_pure.1 h).1
    exact State.names_tailExprs _ _
  name h := by
    cases (ends_pure.1 h).1
    rfl
  tailSpares tail := (sparing nothing).tailExprs tail
  spares a := (sparing nothing).pure [a]

section
variable {args : List (Arg Node)}

theorem exists_ends_delayArgs (hbound : ∀ a ∈ args, a.isTail = true → s.BindsTail env) :
    ∃ actuals t, (delayArgs env args).Ends s (.ok actuals) t := by
  rw [delayArgs_eq_spread]
  induction args generalizing s with
  | nil => exact ⟨[], s, ends_pure.2 ⟨rfl, rfl⟩⟩
  | cons a as ih =>
    obtain ⟨ha, has⟩ := List.forall_mem_cons.1 hbound
    -- the frames stay, and so does the tail for the arguments that follow
    obtain ⟨here, u, hframes, hhere⟩ : ∃ here u, u.store.frames = s.store.frames ∧ (entriesOf env pure
        (fun a => do return [⟨a.name, ← Run.make (·.newPromise a.value env)⟩]) a).Ends s (.ok here) u := by
      unfold entriesOf
      split
      · rename_i htail
        obtain ⟨tail, hget⟩ := ha htail
        exact ⟨tail, s, rfl, by simpa using ends_tailOf_ok hget⟩
      · refine ⟨[⟨a.name, s.store.promises.size⟩], { s with store := (s.store.newPromise a.value env).2 }, rfl, ?_⟩
        rw [ends_make_bind]
        exact ends_pure.2 ⟨rfl, rfl⟩
    have hrest : ∀ b ∈ as, b.isTail = true → u.BindsTail env := fun b hb htail => by
      rw [State.BindsTail, Store.get?_of_frames_eq hframes]
      exact has b hb htail
    obtain ⟨rest, t, hends⟩ := ih hrest
    exact ⟨here ++ rest, t, ends_bind_ok.2 ⟨here, u, hhere, ends_bind_ok.2 ⟨rest, t, hends, ends_pure.2 ⟨rfl, rfl⟩⟩⟩⟩

/-- The expressions listed are those supplied, and nothing else happens. -/
theorem ends_exprsList (hfree : Node.anyMarkers args = false) (hbound : ∀ a ∈ args, a.isTail = true → s.BindsTail env)
    (ev : Evaluator) : (Special.exprsList ev env args).Ends s (.ok (s.supplied env args)) s := by
  rw [exprsList_eq_spread hfree]
  clear hfree
  induction args with
  | nil => exact ends_pure.2 ⟨rfl, rfl⟩
  | cons a as ih =>
    obtain ⟨ha, has⟩ := List.forall_mem_cons.1 hbound
    have hhere : (entriesOf env tailExprs (fun a => pure [a]) a).Ends s (.ok (s.supplied env [a])) s := by
      unfold entriesOf
      split
      · rename_i htail
        obtain ⟨tail, hget⟩ := ha htail
        rw [State.supplied_tail htail hget]
        refine ends_bind_ok.2 ⟨tail, s, ends_tailOf_ok hget, ?_⟩
        rw [tailExprs, ends_store_bind]
        exact ends_pure.2 ⟨rfl, rfl⟩
      · rename_i hother
        rw [State.supplied_other (Bool.eq_false_iff.2 hother)]
        exact ends_pure.2 ⟨rfl, rfl⟩
    rw [State.supplied_cons]
    exact ends_bind_ok.2 ⟨_, s, hhere, ends_bind_ok.2 ⟨_, s, ih has, ends_pure.2 ⟨rfl, rfl⟩⟩⟩

theorem exists_first_tail (h : ∃ a ∈ args, a.isTail = true) :
    ∃ front a rest, args = front ++ a :: rest ∧ (∀ b ∈ front, b.isTail = false) ∧ a.isTail = true := by
  cases hfind : args.find? Arg.isTail with
  | none =>
    obtain ⟨a, ha, htail⟩ := h
    exact absurd htail (List.find?_eq_none.1 hfind a ha)
  | some a =>
    obtain ⟨htail, front, rest, hargs, hfront⟩ := List.find?_eq_some_iff_append.1 hfind
    exact ⟨front, a, rest, hargs, fun b hb => by simpa using hfront b hb, htail⟩

/-- The places that put in the entries of `...` agree. Arguments without markers are delayed, listed
by `exprs`, and evaluated, in an environment whose frames are there. Each time that succeeds, it
gives the entries that the arguments supply, with the names of those and in their order: one for
each argument other than an unnamed `...`, under its name, and the entries of the tail for each
unnamed `...`. The promises are of the expressions that `exprs` lists. If there is an unnamed `...`
and no tail, then delaying and `exprs` fail as the name is unbound, and evaluation never succeeds
and fails, if the arguments in front of one end. Otherwise delaying and `exprs` succeed. -/
theorem tail_entries_agree (hs : TailsMade s) (henv : s.HasEnv env) (hfree : Node.anyMarkers args = false) :
    (∀ actuals t, (delayArgs env args).Ends s (.ok actuals) t → t.tailExprs actuals = s.supplied env args ∧
      actuals.map (·.name) = (s.supplied env args).map (·.name)) ∧
    (∀ depth head v t, (SpecialOp.exprs.apply (eval depth) env head args).Ends s (.ok v) t →
      v = .ofArgs (s.supplied env args) ∧ t = s) ∧
    (∀ depth vs t, (evalArgs (eval depth) env args).Ends s (.ok vs) t →
      vs.map (·.name) = (s.supplied env args).map (·.name)) ∧
    ((∃ a ∈ args, a.isTail = true) → ¬ s.BindsTail env →
      (∃ t, (delayArgs env args).Ends s (.error (.of (.unbound tailName))) t) ∧
      (∀ depth head, (SpecialOp.exprs.apply (eval depth) env head args).Ends s (.error (.of (.unbound tailName))) s) ∧
      ∀ depth, (∀ vs t, ¬ (evalArgs (eval depth) env args).Ends s (.ok vs) t) ∧
        ∀ front a rest, args = front ++ a :: rest → a.isTail = true →
          ∀ r t, (evalArgs (eval depth) env front).Ends s r t →
            ∃ e, (evalArgs (eval depth) env args).Ends s (.error e) t) ∧
    ((∀ a ∈ args, a.isTail = true → s.BindsTail env) → (∃ actuals t, (delayArgs env args).Ends s (.ok actuals) t) ∧
      ∀ depth head, ∃ v, (SpecialOp.exprs.apply (eval depth) env head args).Ends s (.ok v) s) := by
  have hexprs (hbound : ∀ a ∈ args, a.isTail = true → s.BindsTail env) (depth : Nat) (head : Node) :
      (SpecialOp.exprs.apply (eval depth) env head args).Ends s (.ok (.ofArgs (s.supplied env args))) s :=
    ends_bind_ok.2 ⟨_, s, ends_exprsList hfree hbound (eval depth), ends_pure.2 ⟨rfl, rfl⟩⟩
  refine ⟨fun actuals t h => ?_, fun depth head v t h => ?_, fun depth vs t h => ?_, fun htail hnone => ?_,
    fun hbound => ⟨exists_ends_delayArgs hbound, fun depth head => ⟨_, hexprs hbound depth head⟩⟩⟩
  · have hsupplied := tailExprs_of_ends_delayArgs hs h
    exact ⟨hsupplied, by rw [← hsupplied, State.names_tailExprs]⟩
  · -- as it has succeeded there was a tail if one was needed
    obtain ⟨es, u, hes, _⟩ := ends_bind_ok.1 h
    rw [exprsList_eq_spread hfree] at hes
    obtain ⟨hv, rfl⟩ := h.unique (hexprs (spreads_exprs.names henv (.refl s) hes).1 depth head)
    exact ⟨Except.ok.inj hv, rfl⟩
  · rw [evalArgs_eq_spread] at h
    exact ((spreads_evalArgs depth env).names henv (.refl s) h).2
  · -- what is in front of the first `...` needs no tail, so delaying and listing get there
    obtain ⟨front, a, rest, rfl, hfront, ha⟩ := exists_first_tail htail
    have hfront' : ∀ b ∈ front, b.isTail = true → s.BindsTail env := fun b hb htail => by
      rw [hfront b hb] at htail
      cases htail
    refine ⟨?_, fun depth head => ?_, fun depth => ⟨fun vs t h => ?_, fun front' a' rest' hsplit ha' r t h => ?_⟩⟩
    · obtain ⟨actuals, t, h⟩ := exists_ends_delayArgs hfront'
      rw [delayArgs_eq_spread] at h ⊢
      exact ⟨t, (spreads_delayArgs env).ends_unbound henv (.refl s) hnone h ha rest⟩
    · have hfreeFront : Node.anyMarkers front = false := Node.anyMarkers_eq_false_iff.2 fun b hb =>
        Node.anyMarkers_eq_false_iff.1 hfree b (List.mem_append_left _ hb)
      have h := ends_exprsList hfreeFront hfront' (eval depth)
      rw [exprsList_eq_spread hfreeFront] at h
      refine ends_bind_error.2 (.inr ?_)
      rw [exprsList_eq_spread hfree]
      exact spreads_exprs.ends_unbound henv (.refl s) hnone h ha rest
    · rw [evalArgs_eq_spread] at h
      exact hnone (((spreads_evalArgs depth env).names henv (.refl s) h).1 a (by simp) ha)
    · rw [hsplit, evalArgs_eq_spread]
      rw [evalArgs_eq_spread] at h
      cases r with
      | ok vs => exact ⟨_, (spreads_evalArgs depth env).ends_unbound henv (.refl s) hnone h ha' rest'⟩
      | error e =>
        rw [spread_append]
        exact ⟨e, ends_bind_error.2 (.inr h)⟩

end

/-- In the body of `f(w = x)` the arguments `(k = x, ..., ...)` have three entries. Outside of it there is
no tail. -/
theorem tail_entries_agree_repeated :
    let one : Node := .const (.number (.int 1))
    let x : Node := .symbol "x"
    let f : Closure := ⟨[⟨tailName, none⟩], .missing, 0⟩
    let args : List (Arg Node) := [.named "k" x, .unnamed (.symbol tailName), .unnamed (.symbol tailName)]
    let es : List (Arg Node) := [.named "k" x, .named "w" x, .named "w" x]
    ∃ s s' t u actuals, (f.enter (.symbol "f") [.named "w" x] 0).Ends s (.ok 1) s' ∧
      (delayArgs 1 args).Ends s' (.ok actuals) t ∧ t.tailExprs actuals = es ∧
      (SpecialOp.exprs.apply (eval 1) 1 (.symbol "exprs") args).Ends s' (.ok (.ofArgs es)) s' ∧
      (evalArgs (eval 1) 1 args).Ends s' (.ok (es.map fun e => ⟨e.name, .ofNode one⟩)) u ∧
      (SpecialOp.exprs.apply (eval 1) 0 (.symbol "exprs") args).Ends s (.error (.of (.unbound tailName))) s := by
  intro one x f args es
  let given : List (Arg Node) := [.named "w" x]
  let s := State.ofBindings [("x", .value (.ofNode one))]
  let s' := (s.delaying 0 given).entered f (.symbol "f") given 0 [.named "w" 0]
  have henter : (f.enter (.symbol "f") given 0).Ends s (.ok 1) s' := rfl
  have hmade : TailsMade s := tailsMade_ofBindings (by simp)
  have houter : s.HasEnv 0 := by
    unfold State.HasEnv
    decide
  have hinner : s'.HasEnv 1 := by
    unfold State.HasEnv
    decide
  have hfree : Node.anyMarkers args = false := by decide
  have hnone : ¬ s.BindsTail 0 := fun ⟨_, htail⟩ => nomatch (rfl : s.store.get? 0 tailName = none).symm.trans htail
  have htail : s'.store.get? 1 tailName = some (.tail [.named "w" 0]) := rfl
  have hsupplied : s'.supplied 1 args = es := rfl
  obtain ⟨_, _, _, hunbound, _⟩ := tail_entries_agree hmade houter hfree
  obtain ⟨_, hfails, _⟩ := hunbound ⟨_, .tail _ (.head _), rfl⟩ hnone
  obtain ⟨hdelayed, hlisted, _, _, hends⟩ := tail_entries_agree (tailsMade_of_ends_enter henter hmade) hinner hfree
  obtain ⟨⟨actuals, t, hactuals⟩, hexprs⟩ := hends fun _ _ _ => ⟨_, htail⟩
  obtain ⟨v, hv⟩ := hexprs 1 (.symbol "exprs")
  obtain ⟨rfl, _⟩ := hlisted 1 _ v s' hv
  rw [hsupplied] at hdelayed hv
  have hvalues : ∃ u, (evalArgs (eval 1) 1 args).Ends s' (.ok (es.map fun e => ⟨e.name, .ofNode one⟩)) u := ⟨_, rfl⟩
  obtain ⟨u, hu⟩ := hvalues
  exact ⟨s, s', t, u, actuals, henter, hactuals, (hdelayed actuals t hactuals).1, hv, hu, hfails 1 _⟩

end Quotation
