import Quotation.Proofs.Promise.Forcing
/-!
# Frames before and after

What becomes of the frames, contexts and tails of a state while something is evaluated.
`Evolves` is what holds between any two moments: frames and contexts are added, those there
are keep their place, and a name keeps its binding or gets a value. Which values those may
be is a parameter.
-/

namespace Quotation

/-! ## Frames before and after -/

/-- A frame keeps its place and its names. A binding that is new or another one is a value that
is not forbidden. -/
structure Frame.Grown (forbidden : String → Value → Prop) (f f' : Frame) : Prop where
  parent : f'.parent = f.parent
  context : f'.context = f.context
  binding : ∀ name, f'.binding? name = f.binding? name ∨
    ∃ v, f'.binding? name = some (.value v) ∧ ¬ forbidden name v

namespace Frame.Grown

variable {forbidden : String → Value → Prop} {f g f' : Frame}

theorem refl (f : Frame) : Frame.Grown forbidden f f := ⟨rfl, rfl, fun _ => .inl rfl⟩

theorem trans (h : Frame.Grown forbidden f g) (h' : Frame.Grown forbidden g f') : Frame.Grown forbidden f f' where
  parent := h'.parent.trans h.parent
  context := h'.context.trans h.context
  binding name := by
    rcases h'.binding name with h' | h'
    · rw [h']
      exact h.binding name
    · exact .inr h'

theorem insert {name : String} {v : Value} (h : ¬ forbidden name v) :
    Frame.Grown forbidden f { f with bindings := Frame.insert name (.value v) f.bindings } where
  parent := rfl
  context := rfl
  binding other := by
    rw [Frame.binding?, Frame.lookup_insert]
    split
    · rename_i ho
      exact .inr ⟨v, rfl, ho ▸ h⟩
    · exact .inl rfl

end Frame.Grown

/-- The promises of a tail have been made. -/
def Made (s : State) (tail : List (Arg PromiseId)) : Prop := ∀ a ∈ tail, s.HasPromise a.value

/-- The tails in frames and contexts are of promises that have been made. -/
structure TailsMade (s : State) : Prop where
  frame : ∀ (id : FrameId) (f : Frame) (name : String) (tail : List (Arg PromiseId)),
    s.store.frames[id]? = some f → f.binding? name = some (.tail tail) → Made s tail
  context : ∀ (id : ContextId) (c : Context) (tail : List (Arg PromiseId)),
    s.store.contexts[id]? = some c → c.tail = some tail → Made s tail

/-- What becomes of frames, contexts and tails while something is evaluated. -/
structure Evolves (forbidden : FrameId → String → Value → Prop) (s s' : State) : Prop where
  frame : ∀ (id : FrameId) (f : Frame), s.store.frames[id]? = some f →
    ∃ f', s'.store.frames[id]? = some f' ∧ Frame.Grown (forbidden id) f f'
  context : ∀ (id : ContextId) (c : Context), s.store.contexts[id]? = some c → s'.store.contexts[id]? = some c
  promises : s.store.promises.size ≤ s'.store.promises.size
  tails : TailsMade s → TailsMade s'

theorem Made.mono {s s' : State} {tail : List (Arg PromiseId)} (h : Made s tail)
    (hsize : s.store.promises.size ≤ s'.store.promises.size) : Made s' tail :=
  fun a ha => Nat.lt_of_lt_of_le (h a ha) hsize

theorem TailsMade.of_frames_eq {s s' : State} (h : TailsMade s) (hframes : s'.store.frames = s.store.frames)
    (hcontexts : s'.store.contexts = s.store.contexts) (hpromises : s.store.promises.size ≤ s'.store.promises.size) :
    TailsMade s' where
  frame id f name tail hf hb := (h.frame id f name tail (hframes ▸ hf) hb).mono hpromises
  context id c tail hc ht := (h.context id c tail (hcontexts ▸ hc) ht).mono hpromises

/-- What is pushed on a table hides nothing. -/
theorem getElem?_push_of_eq_some {α : Type} {xs : Array α} {i : Nat} {a b : α} (h : xs[i]? = some a) :
    (xs.push b)[i]? = some a := by
  rw [Array.getElem?_push, if_neg (Nat.ne_of_lt (Array.getElem?_eq_some_iff.1 h).1), h]

namespace Evolves

variable {forbidden : FrameId → String → Value → Prop} {s t s' : State}

theorem of_frames_eq (hframes : s'.store.frames = s.store.frames) (hcontexts : s'.store.contexts = s.store.contexts)
    (hpromises : s.store.promises.size ≤ s'.store.promises.size) : Evolves forbidden s s' where
  frame id f hf := ⟨f, by rwa [hframes], .refl f⟩
  context id c hc := by rwa [hcontexts]
  promises := hpromises
  tails h := h.of_frames_eq hframes hcontexts hpromises

theorem refl (s : State) : Evolves forbidden s s := of_frames_eq rfl rfl (Nat.le_refl _)

theorem trans (h : Evolves forbidden s t) (h' : Evolves forbidden t s') : Evolves forbidden s s' where
  frame id f hf := by
    obtain ⟨g, hg, hgrown⟩ := h.frame id f hf
    obtain ⟨f', hf', hgrown'⟩ := h'.frame id g hg
    exact ⟨f', hf', hgrown.trans hgrown'⟩
  context id c hc := h'.context id c (h.context id c hc)
  promises := Nat.le_trans h.promises h'.promises
  tails hs := h'.tails (h.tails hs)

/-- Frames and contexts are added, and those there are stay as they are. -/
theorem of_added (hframes : ∀ (id : FrameId) (f : Frame), s.store.frames[id]? = some f → s'.store.frames[id]? = some f)
    (hcontexts : ∀ (id : ContextId) (c : Context), s.store.contexts[id]? = some c → s'.store.contexts[id]? = some c)
    (hpromises : s.store.promises.size ≤ s'.store.promises.size) (htails : TailsMade s → TailsMade s') :
    Evolves forbidden s s' :=
  ⟨fun id f hf => ⟨f, hframes id f hf, .refl f⟩, hcontexts, hpromises, htails⟩

theorem newRoot (s : State) : Evolves forbidden s { s with store := (s.store.newFrame none none).2 } := by
  refine of_added (fun id f hf => getElem?_push_of_eq_some hf) (fun _ _ hc => hc) (Nat.le_refl _) fun hs =>
    ⟨fun id f name tail hf hb => ?_, hs.context⟩
  rw [Store.newFrame, Array.getElem?_push] at hf
  split at hf
  · cases hf
    cases hb
  · exact hs.frame id f name tail hf hb

theorem modifyPromise (s : State) (id : PromiseId) (f : Promise → Promise) :
    Evolves forbidden s (s.modifyPromise id f) :=
  of_frames_eq rfl rfl (by simp [State.modifyPromise, Store.modifyPromise])

theorem settle (s : State) (id : PromiseId) (r : Except Error Value) : Evolves forbidden s (s.settle id r) := by
  cases r with
  | ok v => exact (modifyPromise s id _).trans (modifyPromise _ id _)
  | error e => exact modifyPromise s id _

/-- An assignment that is not forbidden. -/
theorem assign {env : FrameId} {name : String} {v : Value} (h : ¬ forbidden env name v) :
    Evolves forbidden s { s with store := s.store.bind env name (.value v) } where
  frame id f hf := by
    simp only [Store.bind, Array.getElem?_modify, hf]
    split
    · rename_i hid
      subst hid
      exact ⟨_, rfl, .insert h⟩
    · exact ⟨f, rfl, .refl f⟩
  context id c hc := hc
  promises := Nat.le_refl _
  tails hs := by
    refine ⟨fun id f other tail hf hb => ?_, hs.context⟩
    simp only [Store.bind, Array.getElem?_modify] at hf
    split at hf
    · obtain ⟨g, hg, rfl⟩ := Option.map_eq_some_iff.1 hf
      rw [Frame.binding?, Frame.lookup_insert] at hb
      split at hb
      · cases hb
      · exact hs.frame id g other tail hg hb
    · exact hs.frame id f other tail hf hb

end Evolves

end Quotation
