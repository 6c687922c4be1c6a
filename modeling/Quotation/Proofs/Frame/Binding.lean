import Quotation.Proofs.Frame.Entering
/-!
# Parameters in a new frame

A call of a closure makes promises, a context and a frame, and leaves all that was there alone
(`Adds`). Each parameter is bound in the frame to what it was given (`IsBoundTo`); where parameters
share a name, the last one has it. `exists_ends_enter` puts this together: what there is when the body
is about to be evaluated.
-/

namespace Quotation

variable {s t u s' : State}

/-! ## Promises are added -/

/-- The promises there are stay as they are, and new ones have not been evaluated. -/
structure AddsPromises (s s' : State) : Prop where
  kept : ∀ id, s.HasPromise id → s'.HasPromise id ∧ s'.promise id = s.promise id
  fresh : ∀ id, ¬ s.HasPromise id → (s'.promise id).value = none ∧ (s'.promise id).forcing = false

namespace AddsPromises

theorem of_promises_eq (h : s'.store.promises = s.store.promises) : AddsPromises s s' := by
  have hsame (id : PromiseId) : s'.promise id = s.promise id := by
    simp only [State.promise, Store.promise, h]
  refine ⟨fun id hid => ⟨by rwa [State.HasPromise, h], hsame id⟩, fun id hid => ?_⟩
  rw [hsame id, State.promise_of_not_has hid]
  exact ⟨rfl, rfl⟩

theorem refl (s : State) : AddsPromises s s := of_promises_eq rfl

theorem trans (h : AddsPromises s t) (h' : AddsPromises t s') : AddsPromises s s' where
  kept id hid := by
    obtain ⟨ht, hsame⟩ := h.kept id hid
    obtain ⟨hs', hsame'⟩ := h'.kept id ht
    exact ⟨hs', hsame'.trans hsame⟩
  fresh id hid := by
    by_cases ht : t.HasPromise id
    · rw [(h'.kept id ht).2]
      exact h.fresh id hid
    · exact h'.fresh id ht

theorem newPromise (s : State) (expr : Node) (env : FrameId) :
    AddsPromises s { s with store := (s.store.newPromise expr env).2 } where
  kept id hid := by
    refine ⟨?_, ?_⟩
    · rw [State.HasPromise, Store.newPromise, Array.size_push]
      exact Nat.lt_succ_of_lt hid
    · rw [State.promise, Store.promise_newPromise, if_neg (Nat.ne_of_lt hid)]
  fresh id hid := by
    rw [State.promise, Store.promise_newPromise]
    split
    · exact ⟨rfl, rfl⟩
    · have hnone := State.promise_of_not_has hid
      rw [State.promise] at hnone
      rw [hnone]
      exact ⟨rfl, rfl⟩

end AddsPromises

/-- Frames, contexts and promises are added. Those there are stay as they are, and nothing has been
evaluated. -/
structure Adds (s s' : State) : Prop where
  frame : ∀ (id : FrameId) (f : Frame), s.store.frames[id]? = some f → s'.store.frames[id]? = some f
  context : ∀ (id : ContextId) (c : Context), s.store.contexts[id]? = some c → s'.store.contexts[id]? = some c
  promises : AddsPromises s s'

section
open Run

/-- Delaying arguments makes promises, and evaluates none. -/
theorem adds_of_ends_delayArgs {env : FrameId} {args : List (Arg Node)} {r : Except Error (List (Arg PromiseId))}
    (h : (delayArgs env args).Ends s r s') : Adds s s' := by
  have hdelays := (delays_of_ends_delayArgs h).1
  refine ⟨fun id f hf => hdelays.frames ▸ hf, fun id c hc => hdelays.contexts ▸ hc, ?_⟩
  clear hdelays
  induction args generalizing s r with
  | nil =>
    obtain ⟨_, rfl⟩ := ends_pure.1 h
    exact .refl _
  | cons a as ih =>
    have hrest {t : State} {here : List (Arg PromiseId)}
        (h : (do return here ++ (← delayArgs env as) : Run (List (Arg PromiseId))).Ends t r s') :
        AddsPromises t s' := by
      rcases ends_bind.1 h with ⟨rest, u, hu, h⟩ | ⟨e, he, _⟩
      · obtain ⟨_, rfl⟩ := ends_pure.1 h
        exact ih hu
      · exact ih he
    unfold delayArgs at h
    dsimp only at h
    split at h
    · rcases ends_bind.1 h with ⟨here, t, hhere, hrun⟩ | ⟨e, he, _⟩
      · obtain ⟨rfl, _⟩ := ends_tailOf hhere
        exact hrest hrun
      · exact (ends_tailOf he).1 ▸ .refl s
    · simp only [ends_make_bind, pure_bind] at h
      exact (AddsPromises.newPromise s a.value env).trans (hrest h)

/-! ## What parameters are bound to -/

variable {frame : FrameId} {tail : List (Arg PromiseId)}

/-- What a parameter is bound to in its frame: the tail, the promise it was given, a promise of its
default that was not there before, or nothing. -/
inductive IsBoundTo (s s' : State) (frame : FrameId) (tail : List (Arg PromiseId)) (param : Param) :
    Option PromiseId → Binding → Prop where
  | tail {given : Option PromiseId} (h : param.name = tailName) : IsBoundTo s s' frame tail param given (.tail tail)
  | given {p : PromiseId} (h : param.name ≠ tailName) : IsBoundTo s s' frame tail param (some p) (.promise p)
  | default {p : PromiseId} {expr : Node} (h : param.name ≠ tailName) (hdefault : param.default = some expr)
      (hnew : ¬ s.HasPromise p) (hp : s'.HasPromise p) (hpromise : s'.promise p = ⟨expr, frame, none, false⟩) :
      IsBoundTo s s' frame tail param none (.promise p)
  | missing (h : param.name ≠ tailName) (hdefault : param.default = none) :
      IsBoundTo s s' frame tail param none .missing

theorem IsBoundTo.widen {param : Param} {given : Option PromiseId} {b : Binding} (hst : AddsPromises s t)
    (hus' : AddsPromises u s') (h : IsBoundTo t u frame tail param given b) :
    IsBoundTo s s' frame tail param given b := by
  cases h with
  | tail h => exact .tail h
  | given h => exact .given h
  | default h hdefault hnew hp hpromise =>
    obtain ⟨hp', hsame⟩ := hus'.kept _ hp
    exact .default h hdefault (fun hs => hnew (hst.kept _ hs).1) hp' (hsame.trans hpromise)
  | missing h hdefault => exact .missing h hdefault

theorem exists_ends_bindingOf (s : State) (frame : FrameId) (tail : List (Arg PromiseId)) (param : Param)
    (given : Option PromiseId) : ∃ b s', (bindingOf frame tail param given).Ends s (.ok b) s' ∧
      s'.store.frames = s.store.frames ∧ AddsPromises s s' ∧ IsBoundTo s s' frame tail param given b := by
  by_cases htail : param.name = tailName
  · refine ⟨_, s, ?_, rfl, .refl s, .tail htail⟩
    simp [bindingOf, htail]
  · cases given with
    | some p =>
      refine ⟨_, s, ?_, rfl, .refl s, .given htail⟩
      simp [bindingOf, htail]
    | none =>
      cases hdefault : param.default with
      | none =>
        refine ⟨_, s, ?_, rfl, .refl s, .missing htail hdefault⟩
        simp [bindingOf, htail, hdefault]
      | some expr =>
        refine ⟨.promise s.store.promises.size, { s with store := (s.store.newPromise expr frame).2 }, ?_, rfl,
          .newPromise s expr frame, .default htail hdefault (Nat.lt_irrefl _) ?_ ?_⟩
        · simp only [bindingOf, htail, if_false, hdefault, ends_make_bind]
          exact ends_pure.2 ⟨rfl, rfl⟩
        · rw [State.HasPromise, Store.newPromise, Array.size_push]
          exact Nat.lt_succ_self _
        · rw [State.promise, Store.promise_newPromise, if_pos rfl]

/-! ## Binding them all -/

/-- A frame once parameters have been bound in it. Of parameters that share a name the last one is
bound. -/
structure Frame.HasParameters (s s' : State) (frame : FrameId) (tail : List (Arg PromiseId))
    (slots : List (Param × Option PromiseId)) (f f' : Frame) : Prop where
  parent : f'.parent = f.parent
  context : f'.context = f.context
  bound : ∀ (i : Nat) (param : Param) (given : Option PromiseId), slots[i]? = some (param, given) →
    (∀ (j : Nat) (slot : Param × Option PromiseId), i < j → slots[j]? = some slot → slot.1.name ≠ param.name) →
    ∃ b, f'.binding? param.name = some b ∧ IsBoundTo s s' frame tail param given b
  others : ∀ name, (∀ slot ∈ slots, slot.1.name ≠ name) → f'.binding? name = f.binding? name

theorem exists_ends_bindParams (tail : List (Arg PromiseId)) (slots : List (Param × Option PromiseId)) {f : Frame}
    (hf : s.store.frames[frame]? = some f) : ∃ s' f', (bindParams frame tail slots).Ends s (.ok ()) s' ∧
      s'.store.frames[frame]? = some f' ∧ AddsPromises s s' ∧
      Frame.HasParameters s s' frame tail slots f f' := by
  induction slots generalizing s f with
  | nil =>
    exact ⟨s, f, ends_pure.2 ⟨rfl, rfl⟩, hf, .refl s, rfl, rfl, nofun, fun _ _ => rfl⟩
  | cons slot rest ih =>
    obtain ⟨param, given⟩ := slot
    obtain ⟨b, t, hb, hframes, hadds, hbound⟩ := exists_ends_bindingOf s frame tail param given
    let g : Frame := { f with bindings := Frame.insert param.name b f.bindings }
    have hg : { t with store := t.store.bind frame param.name b : State }.store.frames[frame]? = some g := by
      simp [g, Store.bind, Array.getElem?_modify, hframes, hf]
    have hgname (name : String) : g.binding? name = if name = param.name then some b else f.binding? name := by
      rw [Frame.binding?, Frame.lookup_insert]
      rfl
    have hbind : AddsPromises t { t with store := t.store.bind frame param.name b } := .of_promises_eq rfl
    obtain ⟨s', f', hends, hf', hadds', hrest⟩ := ih hg
    have hadds' : AddsPromises t s' := hbind.trans hadds'
    refine ⟨s', f', ends_bind_ok.2 ⟨b, t, hb, ends_modifyStore_bind.2 hends⟩, hf', hadds.trans hadds', hrest.parent,
      hrest.context, fun i q given' hi hlast => ?_, fun name hname => ?_⟩
    · cases i with
      | zero =>
        cases hi
        refine ⟨b, ?_, hbound.widen (.refl s) hadds'⟩
        rw [hrest.others, hgname, if_pos rfl]
        intro slot hslot
        obtain ⟨j, hj⟩ := List.mem_iff_getElem?.1 hslot
        exact hlast (j + 1) slot (Nat.succ_pos j) hj
      | succ i =>
        obtain ⟨b', hb', hbound'⟩ := hrest.bound i q given' hi fun j slot hij hj =>
          hlast (j + 1) slot (Nat.succ_lt_succ hij) hj
        exact ⟨b', hb', hbound'.widen (hadds.trans hbind) (.refl s')⟩
    · obtain ⟨hhead, htail⟩ := List.forall_mem_cons.1 hname
      rw [hrest.others name htail, hgname, if_neg (Ne.symm hhead)]

/-! ## Entering -/

/-- What there is once a closure has been entered, from the state on in which its arguments have
become promises. -/
structure IsEntered (c : Closure) (head : Node) (args : List (Arg Node)) (env : FrameId) (m : Matching)
    (t s' : State) (frame : FrameId) (f : Frame) : Prop where
  adds : Adds t s'
  new : t.store.frames[frame]? = none
  made : s'.store.frames[frame]? = some f
  parent : f.parent = some c.env
  recorded : ∃ id, f.context = some id ∧ s'.store.contexts[id]? =
    some (callContext (fun p => (t.promise p).expr) head args env c.params m)
  bound : ∀ (i : Nat) (param : Param) (given : Option PromiseId), c.params[i]? = some param →
    m.slots[i]? = some given → (∀ (j : Nat) (q : Param), i < j → c.params[j]? = some q → q.name ≠ param.name) →
    ∃ b, f.binding? param.name = some b ∧ IsBoundTo t s' frame m.tail param given b
  others : ∀ name, (∀ param ∈ c.params, param.name ≠ name) → f.binding? name = none

variable {c : Closure} {args : List (Arg Node)} {env : FrameId} {actuals : List (Arg PromiseId)}

theorem exists_ends_enter (head : Node) {m : Matching} (hactuals : (delayArgs env args).Ends s (.ok actuals) t)
    (hm : Matching.ofArgs (fun p => (t.promise p).expr) c.params actuals = .ok m) :
    ∃ s' f, (c.enter head args env).Ends s (.ok t.store.frames.size) s' ∧
      IsEntered c head args env m t s' t.store.frames.size f := by
  let context := callContext (fun p => (t.promise p).expr) head args env c.params m
  have hnew : (t.calling c.env context).store.frames[t.store.frames.size]? =
      some ⟨some c.env, [], some t.store.contexts.size⟩ := by
    rw [State.calling_frame, if_pos rfl]
  obtain ⟨u, f, hbind, hf, hadds, hparams⟩ :=
    exists_ends_bindParams m.tail (c.params.zip m.slots) hnew
  have hbinds := (Binds.of_ends_bindParams hbind).2
  have hbefore : AddsPromises t (t.calling c.env context) := .of_promises_eq rfl
  have hafter : AddsPromises u (u.logging (.entering c.body)) := .of_promises_eq rfl
  refine ⟨u.logging (.entering c.body), f, ?_, ?_⟩
  · rw [Closure.enter, ends_bind_ok]
    refine ⟨actuals, t, hactuals, ?_⟩
    rw [ends_store_bind]
    dsimp only
    rw [hm]
    simp only [enterFrame, bind_assoc, pure_bind, ends_make_bind]
    exact ends_bind_ok.2 ⟨(), u, hbind, ends_record_bind.2 (ends_pure.2 ⟨rfl, rfl⟩)⟩
  · refine ⟨⟨fun id f hf => ?_, fun id context hc => ?_, (hbefore.trans hadds).trans hafter⟩,
      Array.getElem?_eq_none (Nat.le_refl _), hf, hparams.parent, ⟨_, hparams.context, ?_⟩,
      fun i param given hparam hgiven hlast => ?_, fun name hname => ?_⟩
    · show u.store.frames[id]? = some f
      exact frame_of_binds hbinds hf
    · show u.store.contexts[id]? = some context
      rw [hbinds.contexts]
      exact getElem?_push_of_eq_some hc
    · show u.store.contexts[_]? = some _
      rw [hbinds.contexts, State.calling_context, if_pos rfl]
    · have hslot : (c.params.zip m.slots)[i]? = some (param, given) :=
        List.getElem?_zip_eq_some.2 ⟨hparam, hgiven⟩
      obtain ⟨b, hb, hbound⟩ := hparams.bound i param given hslot fun j slot hij hslot =>
        hlast j slot.1 hij (List.getElem?_zip_eq_some.1 hslot).1
      exact ⟨b, hb, hbound.widen hbefore hafter⟩
    · rw [hparams.others name fun slot hslot => hname slot.1 (List.of_mem_zip hslot).1]
      rfl

theorem ends_enter_of_mismatch (head : Node) {mismatch : Mismatch}
    (hactuals : (delayArgs env args).Ends s (.ok actuals) t)
    (hm : Matching.ofArgs (fun p => (t.promise p).expr) c.params actuals = .error mismatch) :
    (c.enter head args env).Ends s (.error (.of (.mismatch mismatch))) t := by
  rw [Closure.enter, ends_bind]
  refine .inl ⟨actuals, t, hactuals, ?_⟩
  rw [ends_store_bind]
  dsimp only
  rw [hm]
  exact ends_fail.2 ⟨rfl, rfl⟩

end

end Quotation
