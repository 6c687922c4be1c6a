import Quotation.Proofs.Frame.Entering
/-!
# Frames that are there

A closure knows the frame it was made in by number, and so do promises and contexts. Calling a closure
makes a frame inside that one. Frames therefore nest, each being made after the one around it, as long
as all these numbers are numbers of frames there are. `Store.IsScoped` says that they are; evaluation
keeps it (`keepsScope_eval`), and so does all that a host can do (`Built.isScoped`).

Some frames may be hidden: there are no numbers of them in bindings, promises and contexts, and no
frames inside them. What refers only to frames that are shown leaves the hidden ones as they are.
-/

namespace Quotation

/-! ## Values and stores -/

/-- The closures in a value were made in frames of a kind. -/
inductive Value.Sees (seen : FrameId → Prop) : Value → Prop
  | scalar (c : Constant) : Sees seen (.scalar c)
  | lang (x : Node) : Sees seen (.lang x)
  | list {entries : List (Arg Value)} (h : ∀ e ∈ entries, Sees seen e.value) : Sees seen (.list entries)
  | builtin (id : FunctionId) (name : String) (op : BuiltinOp) : Sees seen (.function (.builtin id name op))
  | special (id : FunctionId) (name : String) (op : SpecialOp) : Sees seen (.function (.special id name op))
  | closure (id : FunctionId) {c : Closure} (h : seen c.env) : Sees seen (.function (.closure id c))

/-- The closures in a value were made in frames among the first `n`. -/
abbrev Value.Within (n : Nat) (v : Value) : Prop := v.Sees (· < n)

/-- A frame is among the first `n` and is not hidden. -/
def Shown (hidden : FrameId → Prop) (n : Nat) (id : FrameId) : Prop := id < n ∧ ¬ hidden id

/-- The closures in a value were made in frames that are shown. -/
abbrev Value.Shown (hidden : FrameId → Prop) (n : Nat) (v : Value) : Prop := v.Sees (Quotation.Shown hidden n)

variable {hidden : FrameId → Prop} {m n : Nat}

theorem Shown.mono {id : FrameId} (h : Shown hidden n id) (hn : n ≤ m) : Shown hidden m id :=
  ⟨Nat.lt_of_lt_of_le h.1 hn, h.2⟩

/-- If none is hidden, the frames that are there are shown. -/
theorem Shown.of_lt {id : FrameId} (h : id < n) : Shown (fun _ => False) n id := ⟨h, not_false⟩

namespace Value.Sees

variable {seen : FrameId → Prop}

theorem imp {seen' : FrameId → Prop} {v : Value} (himp : ∀ id, seen id → seen' id) (h : v.Sees seen) :
    v.Sees seen' := by
  induction h with
  | scalar c => exact .scalar c
  | lang x => exact .lang x
  | list _ ih => exact .list ih
  | builtin id name op => exact .builtin id name op
  | special id name op => exact .special id name op
  | closure id h => exact .closure id (himp _ h)

theorem mono {v : Value} (hn : n ≤ m) (h : v.Shown hidden n) : v.Shown hidden m :=
  h.imp fun _ hid => hid.mono hn

theorem shown {v : Value} (h : v.Within n) : v.Shown (fun _ => False) n := h.imp fun _ => .of_lt

theorem ofNode (seen : FrameId → Prop) (x : Node) : (Value.ofNode x).Sees seen := by
  cases x with
  | const c => exact .scalar c
  | symbol name => exact .lang _
  | call head args => exact .lang _
  | pairlist args => exact .lang _

theorem ofArgs (seen : FrameId → Prop) (args : List (Arg Node)) : (Value.ofArgs args).Sees seen := by
  refine .list fun e he => ?_
  obtain ⟨a, _, rfl⟩ := List.mem_map.1 he
  exact ofNode seen a.value

end Value.Sees

/-- Every frame was made after the one around it, and the frames that bindings, promises and contexts
refer to are there. The hidden ones are there, and nothing refers to them. -/
structure Store.IsScoped (hidden : FrameId → Prop) (s : Store) : Prop where
  there : ∀ id, hidden id → id < s.frames.size
  parent : ∀ (id : FrameId) (f : Frame) (p : FrameId), s.frames[id]? = some f → f.parent = some p →
    Shown hidden id p
  value : ∀ (id : FrameId) (f : Frame) (name : String) (v : Value), s.frames[id]? = some f →
    f.binding? name = some (.value v) → v.Shown hidden s.frames.size
  promise : ∀ (id : PromiseId) (p : Promise), s.promises[id]? = some p →
    Shown hidden s.frames.size p.env ∧ ∀ v, p.value = some v → v.Shown hidden s.frames.size
  context : ∀ (id : ContextId) (c : Context), s.contexts[id]? = some c → Shown hidden s.frames.size c.env

/-- There are no fewer frames, and the hidden ones are as they were. -/
structure Store.Spares (hidden : FrameId → Prop) (s s' : Store) : Prop where
  size : s.frames.size ≤ s'.frames.size
  same : ∀ id, hidden id → s'.frames[id]? = s.frames[id]?

namespace Store.Spares

variable {s t s' : Store}

theorem of_frames_eq (h : s'.frames = s.frames) : Spares hidden s s' :=
  ⟨Nat.le_of_eq (congrArg Array.size h.symm), fun id _ => by rw [h]⟩

theorem refl (s : Store) : Spares hidden s s := of_frames_eq rfl

theorem trans (h : Spares hidden s t) (h' : Spares hidden t s') : Spares hidden s s' :=
  ⟨Nat.le_trans h.size h'.size, fun id hid => (h'.same id hid).trans (h.same id hid)⟩

theorem newFrame (h : s.IsScoped hidden) (parent : Option FrameId) (context : Option ContextId) :
    Spares hidden s (s.newFrame parent context).2 := by
  refine ⟨by simp [Store.newFrame], fun id hid => ?_⟩
  rw [Store.newFrame, Array.getElem?_push, if_neg (Nat.ne_of_lt (h.there id hid))]

theorem bind (s : Store) {env : FrameId} (henv : ¬ hidden env) (name : String) (b : Binding) :
    Spares hidden s (s.bind env name b) := by
  refine ⟨by simp [Store.bind], fun id hid => ?_⟩
  have hne : env ≠ id := by
    rintro rfl
    exact henv hid
  rw [Store.bind, Array.getElem?_modify, if_neg hne]

end Store.Spares

namespace Store.IsScoped

variable {s : Store}

theorem empty : Store.empty.IsScoped fun _ => False := ⟨nofun, nofun, nofun, nofun, nofun⟩

/-- A number that was not given out to a frame is not hidden. -/
theorem shown_size (h : s.IsScoped hidden) (hm : s.frames.size < m) : Shown hidden m s.frames.size :=
  ⟨hm, fun hid => Nat.lt_irrefl _ (h.there _ hid)⟩

theorem newFrame (h : s.IsScoped hidden) {parent : Option FrameId}
    (hparent : ∀ p, parent = some p → Shown hidden s.frames.size p) (context : Option ContextId) :
    (s.newFrame parent context).2.IsScoped hidden := by
  have hsize : s.frames.size ≤ (s.newFrame parent context).2.frames.size := by simp [Store.newFrame]
  refine ⟨fun id hid => Nat.lt_of_lt_of_le (h.there id hid) hsize, fun id f p hf hp => ?_,
    fun id f name v hf hb => ?_, fun id p hp => ?_, fun id c hc => (h.context id c hc).mono hsize⟩
  · rw [Store.newFrame, Array.getElem?_push] at hf
    split at hf
    · cases hf
      rename_i hid
      exact hid ▸ hparent p hp
    · exact h.parent id f p hf hp
  · rw [Store.newFrame, Array.getElem?_push] at hf
    split at hf
    · cases hf
      cases hb
    · exact (h.value id f name v hf hb).mono hsize
  · obtain ⟨henv, hvalue⟩ := h.promise id p hp
    exact ⟨henv.mono hsize, fun v hv => (hvalue v hv).mono hsize⟩

theorem newPromise (h : s.IsScoped hidden) (expr : Node) {env : FrameId} (henv : Shown hidden s.frames.size env) :
    (s.newPromise expr env).2.IsScoped hidden := by
  refine ⟨h.there, h.parent, h.value, fun id p hp => ?_, h.context⟩
  rw [Store.newPromise, Array.getElem?_push] at hp
  split at hp
  · cases hp
    refine ⟨henv, fun v hv => ?_⟩
    cases hv
  · exact h.promise id p hp

theorem newContext (h : s.IsScoped hidden) {c : Context} (hc : Shown hidden s.frames.size c.env) :
    (s.newContext c).2.IsScoped hidden := by
  refine ⟨h.there, h.parent, h.value, h.promise, fun id c' hc' => ?_⟩
  rw [Store.newContext, Array.getElem?_push] at hc'
  split at hc'
  · cases hc'
    exact hc
  · exact h.context id c' hc'

theorem newFunction (h : s.IsScoped hidden) : s.newFunction.2.IsScoped hidden :=
  ⟨h.there, h.parent, h.value, h.promise, h.context⟩

theorem bind (h : s.IsScoped hidden) (env : FrameId) (name : String) {b : Binding}
    (hb : ∀ v, b = .value v → v.Shown hidden s.frames.size) : (s.bind env name b).IsScoped hidden := by
  have hsize : (s.bind env name b).frames.size = s.frames.size := by simp [Store.bind]
  refine ⟨hsize ▸ h.there, fun id f p hf hp => ?_, fun id f other v hf hv => ?_, hsize ▸ h.promise,
    hsize ▸ h.context⟩
  · simp only [Store.bind, Array.getElem?_modify] at hf
    split at hf
    · obtain ⟨g, hg, rfl⟩ := Option.map_eq_some_iff.1 hf
      exact h.parent id g p hg hp
    · exact h.parent id f p hf hp
  · rw [hsize]
    simp only [Store.bind, Array.getElem?_modify] at hf
    split at hf
    · obtain ⟨g, hg, rfl⟩ := Option.map_eq_some_iff.1 hf
      rw [Frame.binding?, Frame.lookup_insert] at hv
      split at hv
      · exact hb v (Option.some.inj hv)
      · exact h.value id g other v hg hv
    · exact h.value id f other v hf hv

/-- A promise may be marked, and may get a value. -/
theorem modifyPromise (h : s.IsScoped hidden) (id : PromiseId) {f : Promise → Promise}
    (henv : ∀ p, (f p).env = p.env)
    (hvalue : ∀ p v, (f p).value = some v → p.value = some v ∨ v.Shown hidden s.frames.size) :
    (s.modifyPromise id f).IsScoped hidden := by
  refine ⟨h.there, h.parent, h.value, fun other p hp => ?_, h.context⟩
  simp only [Store.modifyPromise, Array.getElem?_modify] at hp
  split at hp
  · obtain ⟨q, hq, rfl⟩ := Option.map_eq_some_iff.1 hp
    obtain ⟨hqenv, hqvalue⟩ := h.promise other q hq
    exact ⟨henv q ▸ hqenv, fun v hv => (hvalue q v hv).elim (hqvalue v) fun h => h⟩
  · exact h.promise other p hp

/-- A number that was not given out stands for a promise of the missing argument. -/
theorem promise_cases (h : s.IsScoped hidden) (id : PromiseId) :
    (s.promise id = ⟨.missing, 0, none, false⟩) ∨ (Shown hidden s.frames.size (s.promise id).env ∧
      ∀ v, (s.promise id).value = some v → v.Shown hidden s.frames.size) := by
  cases hp : s.promises[id]? with
  | none => exact .inl (by simp [Store.promise, Array.getD_eq_getD_getElem?, hp])
  | some p =>
    have hsame : s.promise id = p := by simp [Store.promise, Array.getD_eq_getD_getElem?, hp]
    exact .inr (hsame ▸ h.promise id p hp)

theorem settle {t : State} (h : t.store.IsScoped hidden) (id : PromiseId) {r : Except Error Value}
    (hr : ∀ v, r = .ok v → v.Shown hidden t.store.frames.size) :
    (t.settle id r).store.IsScoped hidden ∧ (t.settle id r).store.frames = t.store.frames := by
  have hmark : (t.mark id false).store.IsScoped hidden := h.modifyPromise id (fun _ => rfl) fun _ _ hv => .inl hv
  cases r with
  | ok v =>
    refine ⟨hmark.modifyPromise id (fun _ => rfl) fun p w hw => .inr ?_, rfl⟩
    cases hw
    exact hr v rfl
  | error e => exact ⟨hmark, rfl⟩

/-- The environment of a context is there, if the context has a tail. -/
theorem context_env (h : s.IsScoped hidden) (id : ContextId) (htail : (s.context id).tail ≠ none) :
    Shown hidden s.frames.size (s.context id).env := by
  cases hc : s.contexts[id]? with
  | none => simp [Store.context, Array.getD_eq_getD_getElem?, hc] at htail
  | some c =>
    have hsame : s.context id = c := by simp [Store.context, Array.getD_eq_getD_getElem?, hc]
    exact hsame ▸ h.context id c hc

theorem unhide (h : s.IsScoped hidden) : s.IsScoped fun _ => False where
  there := nofun
  parent id f p hf hp := .of_lt (h.parent id f p hf hp).1
  value id f name v hf hb := (h.value id f name v hf hb).imp fun _ hid => .of_lt hid.1
  promise id p hp := ⟨.of_lt (h.promise id p hp).1.1, fun v hv => ((h.promise id p hp).2 v hv).imp fun _ hid =>
    .of_lt hid.1⟩
  context id c hc := .of_lt (h.context id c hc).1

/-- A frame that has just been made is hidden until something refers to it. -/
theorem hide (h : s.IsScoped fun _ => False) {parent : FrameId} (hparent : parent < s.frames.size)
    (context : Option ContextId) :
    (s.newFrame (some parent) context).2.IsScoped (· = s.frames.size) := by
  have hsize : (s.newFrame (some parent) context).2.frames.size = s.frames.size + 1 := by simp [Store.newFrame]
  have hshown {id : FrameId} (hid : id < s.frames.size) : Shown (· = s.frames.size) (s.frames.size + 1) id :=
    ⟨Nat.lt_succ_of_lt hid, Nat.ne_of_lt hid⟩
  have hvalue {v : Value} (hv : v.Shown (fun _ => False) s.frames.size) :
      v.Shown (· = s.frames.size) (s.frames.size + 1) := hv.imp fun _ hid => hshown hid.1
  refine ⟨fun id hid => ?_, fun id f p hf hp => ?_, fun id f name v hf hb => ?_, fun id p hp => ?_, fun id c hc => ?_⟩
  · rw [hid, hsize]
    exact Nat.lt_succ_self _
  · rw [Store.newFrame, Array.getElem?_push] at hf
    split at hf
    · cases hf
      cases hp
      rename_i hid
      exact ⟨hid ▸ hparent, Nat.ne_of_lt hparent⟩
    · have hlt := (h.parent id f p hf hp).1
      have hid : id < s.frames.size := (Array.getElem?_eq_some_iff.1 hf).1
      exact ⟨hlt, Nat.ne_of_lt (Nat.lt_trans hlt hid)⟩
  · rw [Store.newFrame, Array.getElem?_push] at hf
    rw [hsize]
    split at hf
    · cases hf
      cases hb
    · exact hvalue (h.value id f name v hf hb)
  · rw [hsize]
    obtain ⟨henv, hp⟩ := h.promise id p hp
    exact ⟨hshown henv.1, fun v hv => hvalue (hp v hv)⟩
  · rw [hsize]
    exact hshown (h.context id c hc).1

end Store.IsScoped

end Quotation
