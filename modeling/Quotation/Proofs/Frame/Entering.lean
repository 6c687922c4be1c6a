import Quotation.Proofs.Eval.Matching
import Quotation.Proofs.Frame.Growth
/-!
# Entering closures

What a call of a closure does before its body is evaluated. The arguments become promises, the
parameters are bound in a new frame, and all that was there before is left alone
(`evolves_of_ends_enter`).
-/

namespace Quotation

/-! ## Tails of calls -/

section
open Run

variable {s t s' : State}

/-- A binding that is found stands in some frame. -/
theorem Store.exists_frame_of_get? {store : Store} {env : FrameId} {name : String} {b : Binding}
    (h : store.get? env name = some b) :
    ∃ (id : FrameId) (f : Frame), store.frames[id]? = some f ∧ f.binding? name = some b := by
  obtain ⟨id, _, hid⟩ := List.exists_of_findSome?_eq_some h
  obtain ⟨f, hf, hb⟩ := Option.bind_eq_some_iff.1 hid
  exact ⟨id, f, hf, hb⟩

theorem ends_tailOf {env : FrameId} {r : Except Error (List (Arg PromiseId))} (h : (tailOf env).Ends s r s') :
    s' = s ∧ ∀ tail, r = .ok tail → s.store.get? env tailName = some (.tail tail) := by
  rw [tailOf, ends_store_bind] at h
  split at h
  · rename_i args hget
    obtain ⟨rfl, rfl⟩ := ends_pure.1 h
    exact ⟨rfl, fun tail htail => by cases htail; exact hget⟩
  · obtain ⟨rfl, rfl⟩ := ends_fail.1 h
    exact ⟨rfl, nofun⟩

theorem TailsMade.get? (hs : TailsMade s) {env : FrameId} {name : String} {tail : List (Arg PromiseId)}
    (h : s.store.get? env name = some (.tail tail)) : Made s tail := by
  obtain ⟨id, f, hf, hb⟩ := Store.exists_frame_of_get? h
  exact hs.frame id f _ _ hf hb

/-- Promises are made, and no frames and contexts. -/
structure Delays (s s' : State) : Prop where
  frames : s'.store.frames = s.store.frames
  contexts : s'.store.contexts = s.store.contexts
  promises : s.store.promises.size ≤ s'.store.promises.size

theorem Delays.refl (s : State) : Delays s s := ⟨rfl, rfl, Nat.le_refl _⟩

theorem Delays.trans (h : Delays s t) (h' : Delays t s') : Delays s s' :=
  ⟨h'.frames.trans h.frames, h'.contexts.trans h.contexts, Nat.le_trans h.promises h'.promises⟩

theorem Delays.evolves {forbidden : FrameId → String → Value → Prop} (h : Delays s s') : Evolves forbidden s s' :=
  .of_frames_eq h.frames h.contexts h.promises

theorem Delays.tailsMade (h : Delays s s') (hs : TailsMade s) : TailsMade s' :=
  hs.of_frames_eq h.frames h.contexts h.promises

/-- Delaying arguments makes promises, and gives no other ones than those and the ones in tails. -/
theorem delays_of_ends_delayArgs {env : FrameId} {args : List (Arg Node)} {r : Except Error (List (Arg PromiseId))}
    (h : (delayArgs env args).Ends s r s') : Delays s s' ∧ ∀ tail, r = .ok tail → TailsMade s → Made s' tail := by
  induction args generalizing s r with
  | nil =>
    obtain ⟨rfl, rfl⟩ := ends_pure.1 h
    exact ⟨.refl _, fun tail htail _ => by cases htail; exact nofun⟩
  | cons a as ih =>
    have hrest {t : State} {here : List (Arg PromiseId)} (hdelays : Delays s t) (hmade : TailsMade s → Made t here)
        (h : (do return here ++ (← delayArgs env as) : Run (List (Arg PromiseId))).Ends t r s') :
        Delays s s' ∧ ∀ tail, r = .ok tail → TailsMade s → Made s' tail := by
      rcases ends_bind.1 h with ⟨rest, u, hu, h⟩ | ⟨e, he, rfl⟩
      · obtain ⟨rfl, rfl⟩ := ends_pure.1 h
        obtain ⟨hdelays', hmade'⟩ := ih hu
        refine ⟨hdelays.trans hdelays', fun tail htail hs => ?_⟩
        cases htail
        exact List.forall_mem_append.2 ⟨(hmade hs).mono hdelays'.promises, hmade' rest rfl (hdelays.tailsMade hs)⟩
      · exact ⟨hdelays.trans (ih he).1, nofun⟩
    unfold delayArgs at h
    dsimp only at h
    split at h
    · rcases ends_bind.1 h with ⟨here, t, hhere, hrun⟩ | ⟨e, he, rfl⟩
      · obtain ⟨rfl, htail⟩ := ends_tailOf hhere
        exact hrest (.refl _) (fun hs => hs.get? (htail here rfl)) hrun
      · exact ⟨(ends_tailOf he).1 ▸ .refl s, nofun⟩
    · simp only [ends_make_bind, pure_bind] at h
      refine hrest (t := { s with store := (s.store.newPromise a.value env).2 }) ⟨rfl, rfl, ?_⟩ (fun _ => ?_) h
      · simp [Store.newPromise]
      · simp [Made, Store.newPromise]

end

/-! ## Calls of closures -/

/-- What a call of a closure does before the body is evaluated: the number of the new frame. -/
def Closure.enter (c : Closure) (head : Node) (args : List (Arg Node)) (env : FrameId) : Run FrameId := do
  let actuals ← delayArgs env args
  let store ← Run.store
  let exprOf := fun p => (store.promise p).expr
  match Matching.ofArgs exprOf c.params actuals with
  | .error m => Run.fail (.mismatch m)
  | .ok m =>
    let context ← Run.make (·.newContext (callContext exprOf head args env c.params m))
    let frame ← enterFrame c.env context m.tail (c.params.zip m.slots)
    Run.record (.entering c.body)
    return frame

theorem Closure.apply_eq_enter (ev : Evaluator) (c : Closure) (head : Node) (args : List (Arg Node)) (env : FrameId) :
    c.apply ev head args env = c.enter head args env >>= ev c.body := by
  simp only [Closure.apply, Closure.enter, enterFrame, bind_assoc, pure_bind]
  refine bind_congr fun actuals => bind_congr fun store => ?_
  cases Matching.ofArgs (fun p => (store.promise p).expr) c.params actuals with
  | error m => rfl
  | ok m => simp only [bind_assoc, pure_bind]

/-- What binding the parameters in a frame changes: bindings of the frame, of which the tail is the
one given, and the promises of defaults are made. -/
structure Binds (frame : FrameId) (tail : List (Arg PromiseId)) (s s' : State) : Prop where
  others : ∀ id, id ≠ frame → s'.store.frames[id]? = s.store.frames[id]?
  tails : ∀ (f' : Frame) (name : String) (tail' : List (Arg PromiseId)), s'.store.frames[frame]? = some f' →
    f'.binding? name = some (.tail tail') → tail' = tail ∨
      ∃ f : Frame, s.store.frames[frame]? = some f ∧ f.binding? name = some (.tail tail')
  contexts : s'.store.contexts = s.store.contexts
  promises : s.store.promises.size ≤ s'.store.promises.size

namespace Binds

open Run

variable {frame : FrameId} {tail : List (Arg PromiseId)} {s t s' : State}

theorem of_frames_eq (hframes : s'.store.frames = s.store.frames) (hcontexts : s'.store.contexts = s.store.contexts)
    (hpromises : s.store.promises.size ≤ s'.store.promises.size) : Binds frame tail s s' where
  others id _ := by rw [hframes]
  tails f' name tail' hf hb := .inr ⟨f', hframes ▸ hf, hb⟩
  contexts := hcontexts
  promises := hpromises

theorem trans (h : Binds frame tail s t) (h' : Binds frame tail t s') : Binds frame tail s s' where
  others id hid := (h'.others id hid).trans (h.others id hid)
  tails f' name tail' hf' hb' := by
    rcases h'.tails f' name tail' hf' hb' with h' | ⟨g, hg, hb⟩
    · exact .inl h'
    · exact h.tails g name tail' hg hb
  contexts := h'.contexts.trans h.contexts
  promises := Nat.le_trans h.promises h'.promises

theorem bind {name : String} {b : Binding} (hb : ∀ tail', b = .tail tail' → tail' = tail) :
    Binds frame tail s { s with store := s.store.bind frame name b } where
  others id hid := by simp [Store.bind, Array.getElem?_modify, Ne.symm hid]
  tails f' other tail' hf' hb' := by
    rw [Store.bind, Array.getElem?_modify, if_pos rfl] at hf'
    obtain ⟨f, hf, rfl⟩ := Option.map_eq_some_iff.1 hf'
    rw [Frame.binding?, Frame.lookup_insert] at hb'
    split at hb'
    · exact .inl (hb tail' (Option.some.inj hb'))
    · exact .inr ⟨f, hf, hb'⟩
  contexts := rfl
  promises := Nat.le_refl _

theorem newPromise (s : State) (expr : Node) (env : FrameId) :
    Binds frame tail s { s with store := (s.store.newPromise expr env).2 } :=
  of_frames_eq rfl rfl (by simp [Store.newPromise])

theorem of_ends_bindingOf {param : Param} {given : Option PromiseId} {r : Except Error Binding}
    (h : (bindingOf frame tail param given).Ends s r s') :
    ∃ b, r = .ok b ∧ (∀ tail', b = .tail tail' → tail' = tail) ∧ Binds frame tail s s' := by
  have hsame : Binds frame tail s s := of_frames_eq rfl rfl (Nat.le_refl _)
  unfold bindingOf at h
  dsimp only at h
  split at h
  · obtain ⟨rfl, rfl⟩ := ends_pure.1 h
    exact ⟨_, rfl, fun _ htail => (Binding.tail.inj htail).symm, hsame⟩
  · split at h
    · obtain ⟨rfl, rfl⟩ := ends_pure.1 h
      exact ⟨_, rfl, nofun, hsame⟩
    · rcases ends_bind.1 h with ⟨p, t, hp, h⟩ | ⟨e, hp, _⟩
      · obtain ⟨_, rfl⟩ := ends_make.1 hp
        obtain ⟨rfl, rfl⟩ := ends_pure.1 h
        exact ⟨_, rfl, nofun, newPromise _ _ _⟩
      · cases (ends_make.1 hp).1
    · obtain ⟨rfl, rfl⟩ := ends_pure.1 h
      exact ⟨_, rfl, nofun, hsame⟩

/-- Binding parameters never fails. -/
theorem of_ends_bindParams {slots : List (Param × Option PromiseId)} {r : Except Error Unit}
    (h : (bindParams frame tail slots).Ends s r s') : r = .ok () ∧ Binds frame tail s s' := by
  induction slots generalizing s with
  | nil =>
    obtain ⟨rfl, rfl⟩ := ends_pure.1 h
    exact ⟨rfl, of_frames_eq rfl rfl (Nat.le_refl _)⟩
  | cons slot rest ih =>
    obtain ⟨param, given⟩ := slot
    rcases ends_bind.1 h with ⟨b, t, hb, h⟩ | ⟨e, he, _⟩
    · obtain ⟨_, hok, htail, hbinds⟩ := of_ends_bindingOf hb
      cases hok
      obtain ⟨hr, hrest⟩ := ih (ends_modifyStore_bind.1 h)
      exact ⟨hr, hbinds.trans ((bind htail).trans hrest)⟩
    · obtain ⟨_, hok, _⟩ := of_ends_bindingOf he
      cases hok

end Binds

/-! ## Entering a closure -/

section
open Run

variable {forbidden : FrameId → String → Value → Prop} {s t s' : State}

/-- The state in which the frame of a call has been made, and nothing is bound in it. -/
def State.calling (t : State) (parent : FrameId) (context : Context) : State :=
  { t with store := ((t.store.newContext context).2.newFrame (some parent) (some t.store.contexts.size)).2 }

theorem State.calling_frame (t : State) (parent : FrameId) (context : Context) (id : FrameId) :
    (t.calling parent context).store.frames[id]? =
      if id = t.store.frames.size then some ⟨some parent, [], some t.store.contexts.size⟩ else t.store.frames[id]? :=
  Array.getElem?_push

theorem State.calling_context (t : State) (parent : FrameId) (context : Context) (id : ContextId) :
    (t.calling parent context).store.contexts[id]? =
      if id = t.store.contexts.size then some context else t.store.contexts[id]? :=
  Array.getElem?_push

/-- Entering fails on the arguments, or binds the parameters in a new frame. -/
theorem ends_enter {c : Closure} {head : Node} {args : List (Arg Node)} {env : FrameId} {r : Except Error FrameId}
    (h : (c.enter head args env).Ends s r s') :
    (∃ e, (delayArgs env args).Ends s (.error e) s') ∨ ∃ actuals t, (delayArgs env args).Ends s (.ok actuals) t ∧
      (s' = t ∨ ∃ m u, Matching.ofArgs (fun p => (t.promise p).expr) c.params actuals = .ok m ∧
        Binds t.store.frames.size m.tail
          (t.calling c.env (callContext (fun p => (t.promise p).expr) head args env c.params m)) u ∧
        s' = u.logging (.entering c.body)) := by
  rcases ends_bind.1 h with ⟨actuals, t, hactuals, h⟩ | ⟨e, he, rfl⟩
  · refine .inr ⟨actuals, t, hactuals, ?_⟩
    rw [ends_store_bind] at h
    dsimp only at h
    split at h
    · exact .inl (ends_fail.1 h).2
    · rename_i m hm
      refine .inr ⟨m, ?_⟩
      simp only [enterFrame, bind_assoc, pure_bind, ends_make_bind] at h
      rcases ends_bind.1 h with ⟨_, u, hbind, h⟩ | ⟨e, he, _⟩
      · rw [ends_record_bind] at h
        exact ⟨u, hm, (Binds.of_ends_bindParams hbind).2, (ends_pure.1 h).2⟩
      · cases (Binds.of_ends_bindParams he).1
  · exact .inl ⟨e, he⟩

variable {parent frame : FrameId} {context : Context} {tail : List (Arg PromiseId)} {id : FrameId} {f : Frame}

theorem frame_of_binds (h : Binds t.store.frames.size tail (t.calling parent context) s')
    (hf : t.store.frames[id]? = some f) : s'.store.frames[id]? = some f := by
  have hid : id ≠ t.store.frames.size := Nat.ne_of_lt (Array.getElem?_eq_some_iff.1 hf).1
  rw [h.others id hid]
  exact getElem?_push_of_eq_some hf

theorem tailsMade_of_binds (h : Binds t.store.frames.size tail (t.calling parent context) s')
    (hcontext : ∀ tail', context.tail = some tail' → tail' = tail) (ht : TailsMade t) (hmade : Made t tail) :
    TailsMade s' := by
  refine ⟨fun id f name tail' hf hb => ?_, fun id c tail' hc htail => ?_⟩
  · by_cases hid : id = t.store.frames.size
    · subst hid
      rcases h.tails f name tail' hf hb with rfl | ⟨g, hg, hb⟩
      · exact hmade.mono h.promises
      · -- the frame was made without bindings
        rw [State.calling_frame, if_pos rfl] at hg
        cases hg
        cases hb
    · rw [h.others id hid, State.calling_frame, if_neg hid] at hf
      exact (ht.frame id f name tail' hf hb).mono h.promises
  · rw [h.contexts, State.calling_context] at hc
    split at hc
    · cases hc
      exact hcontext tail' htail ▸ hmade.mono h.promises
    · exact (ht.context id c tail' hc htail).mono h.promises

/-- Entering a closure leaves the frames there are alone. -/
theorem evolves_of_ends_enter {c : Closure} {head : Node} {args : List (Arg Node)} {env : FrameId}
    {r : Except Error FrameId} (h : (c.enter head args env).Ends s r s') : Evolves forbidden s s' := by
  rcases ends_enter h with ⟨e, he⟩ | ⟨actuals, t, hactuals, h⟩
  · exact (delays_of_ends_delayArgs he).1.evolves
  · obtain ⟨hdelays, hmade⟩ := delays_of_ends_delayArgs hactuals
    rcases h with rfl | ⟨m, u, hm, hbinds, rfl⟩
    · exact hdelays.evolves
    · refine .of_added (fun id f hf => ?_) (fun id c hc => ?_)
        (Nat.le_trans hdelays.promises hbinds.promises) fun hs => ?_
      · have hu : u.store.frames[id]? = some f := frame_of_binds hbinds (hdelays.frames ▸ hf)
        exact hu
      · show u.store.contexts[id]? = some c
        rw [hbinds.contexts]
        exact getElem?_push_of_eq_some (hdelays.contexts ▸ hc)
      · have htails := tailsMade_of_binds hbinds (fun tail' htail => ?_) (hdelays.tailsMade hs) fun a ha =>
          hmade actuals rfl hs a ((Matching.ofArgs_eq_ok_iff.1 hm).2.mem_of_tail ha)
        · exact ⟨htails.frame, htails.context⟩
        · rw [callContext] at htail
          dsimp only at htail
          split at htail
          · exact (Option.some.inj htail).symm
          · cases htail

theorem tailsMade_of_ends_enter {c : Closure} {head : Node} {args : List (Arg Node)} {env : FrameId}
    {r : Except Error FrameId} (h : (c.enter head args env).Ends s r s') : TailsMade s → TailsMade s' :=
  Evolves.tails (evolves_of_ends_enter h : Evolves (fun _ _ _ => False) s s')

end

end Quotation
