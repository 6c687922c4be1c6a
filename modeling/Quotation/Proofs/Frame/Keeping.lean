import Quotation.Proofs.Frame.Scope
/-!
# Runs that keep scopes

A run keeps scopes if it leads from scoped stores to scoped stores, leaves hidden frames alone and
returns only what refers to frames that are shown then. This is kept by putting runs together. Forcing,
arguments and expansion keep scopes if the evaluations below them do.
-/

namespace Quotation

/-! ## Runs that keep scopes -/

section
open Run

variable {α β : Type} {hidden : FrameId → Prop} {n : Nat} {good : Nat → α → Prop} {x : Run α}

/-- From a scoped store with `n` frames or more the run leads to a scoped one with no fewer frames, of
which the hidden ones are as they were, and what it returns is good for as many frames as there are then. -/
def KeepsScope (hidden : FrameId → Prop) (n : Nat) (good : Nat → α → Prop) (x : Run α) : Prop :=
  ∀ s r s', s.store.IsScoped hidden → n ≤ s.store.frames.size → x.Ends s r s' → s'.store.IsScoped hidden ∧
    s.store.Spares hidden s'.store ∧ ∀ a, r = .ok a → good s'.store.frames.size a

/-- What is returned does not refer to frames. -/
def anything : Nat → α → Prop := fun _ _ => True

/-- The closures in the values of entries were made in frames that are shown. -/
def EntriesShown (hidden : FrameId → Prop) (n : Nat) (entries : List (Arg Value)) : Prop :=
  ∀ e ∈ entries, e.value.Shown hidden n

namespace KeepsScope

theorem mono {m : Nat} (hn : n ≤ m) (h : KeepsScope hidden n good x) : KeepsScope hidden m good x :=
  fun s r s' hs hm hx => h s r s' hs (Nat.le_trans hn hm) hx

theorem pure {a : α} (h : ∀ m, n ≤ m → good m a) : KeepsScope hidden n good (pure a) := by
  intro s r s' hs hn hx
  obtain ⟨rfl, rfl⟩ := ends_pure.1 hx
  refine ⟨hs, .refl _, fun b hb => ?_⟩
  cases hb
  exact h _ hn

theorem gives (a : α) : KeepsScope hidden n anything (Pure.pure a : Run α) := pure fun _ _ => trivial

theorem throw (e : Error) : KeepsScope hidden n good (throw e : Run α) := by
  intro s r s' hs hn hx
  obtain ⟨rfl, rfl⟩ := ends_throw.1 hx
  exact ⟨hs, .refl _, nofun⟩

theorem ofExcept {r : Except Error α} (h : ∀ a, r = .ok a → ∀ m, n ≤ m → good m a) :
    KeepsScope hidden n good (Run.ofExcept r) := by
  cases r with
  | ok a => exact pure (h a rfl)
  | error e => exact throw e

theorem outcome (r : Except Error α) : KeepsScope hidden n anything (Run.ofExcept r) :=
  ofExcept fun _ _ _ _ => trivial

theorem bind {f : α → Run β} {good' : Nat → β → Prop} (hx : KeepsScope hidden n good x)
    (hf : ∀ m a, n ≤ m → good m a → KeepsScope hidden m good' (f a)) : KeepsScope hidden n good' (x >>= f) := by
  intro s r s' hs hn h
  rcases ends_bind.1 h with ⟨a, t, ha, h⟩ | ⟨e, he, rfl⟩
  · obtain ⟨ht, hspares, hgood⟩ := hx s _ t hs hn ha
    obtain ⟨hs', hspares', hgood'⟩ :=
      hf _ a (Nat.le_trans hn hspares.size) (hgood a rfl) t r s' ht (Nat.le_refl _) h
    exact ⟨hs', hspares.trans hspares', hgood'⟩
  · obtain ⟨hs', hspares, _⟩ := hx s _ s' hs hn he
    exact ⟨hs', hspares, nofun⟩

/-- What comes after may not depend on what is returned before. -/
theorem seq {f : α → Run β} {good' : Nat → β → Prop} (hx : KeepsScope hidden n good x)
    (hf : ∀ a, KeepsScope hidden n good' (f a)) : KeepsScope hidden n good' (x >>= f) :=
  hx.bind fun _ a hn _ => (hf a).mono hn

theorem explain (cause : Cause) (path : Path) (hx : KeepsScope hidden n good x) :
    KeepsScope hidden n good (x.explain cause path) := by
  intro s r s' hs hn h
  obtain ⟨q, hq, rfl⟩ := ends_explain.1 h
  obtain ⟨hs', hspares, hgood⟩ := hx s q s' hs hn hq
  refine ⟨hs', hspares, fun a ha => hgood a ?_⟩
  cases q with
  | ok b => exact ha
  | error e => cases ha

/-- The store that is read is the one there is when the run goes on. -/
theorem readStore {f : Store → Run α} (h : ∀ store : Store, store.IsScoped hidden → n ≤ store.frames.size →
    KeepsScope hidden store.frames.size good (f store)) : KeepsScope hidden n good (store >>= f) :=
  fun s r s' hs hn hx => h s.store hs hn s r s' hs (Nat.le_refl _) (ends_store_bind.1 hx)

theorem of_store_eq (h : ∀ s r s', x.Ends s r s' → s'.store = s.store) : KeepsScope hidden n anything x := by
  intro s r s' hs hn hx
  rw [h s r s' hx]
  exact ⟨hs, .refl _, fun _ _ => trivial⟩

theorem record (e : Event) : KeepsScope hidden n anything (record e) :=
  of_store_eq fun s r s' h => by rw [(ends_record.1 h).2]; rfl

theorem knownEnv (id : FrameId) : KeepsScope hidden n anything (knownEnv id) :=
  of_store_eq fun s r s' h => by cases h; rfl

theorem knownContext (id : ContextId) : KeepsScope hidden n anything (knownContext id) :=
  of_store_eq fun s r s' h => by cases h; rfl

theorem modifyStore {f : Store → Store} (h : ∀ s : Store, s.IsScoped hidden → n ≤ s.frames.size →
    (f s).IsScoped hidden ∧ s.Spares hidden (f s)) : KeepsScope hidden n anything (modifyStore f) := by
  intro s r s' hs hn hx
  rw [(ends_modifyStore.1 hx).2]
  obtain ⟨hs', hspares⟩ := h s.store hs hn
  exact ⟨hs', hspares, fun _ _ => trivial⟩

theorem make {f : Store → α × Store} (h : ∀ s : Store, s.IsScoped hidden → n ≤ s.frames.size →
    (f s).2.IsScoped hidden ∧ s.Spares hidden (f s).2 ∧ good (f s).2.frames.size (f s).1) :
    KeepsScope hidden n good (make f) := by
  intro s r s' hs hn hx
  obtain ⟨rfl, rfl⟩ := ends_make.1 hx
  obtain ⟨hs', hspares, hgood⟩ := h s.store hs hn
  refine ⟨hs', hspares, fun a ha => ?_⟩
  cases ha
  exact hgood

/-! ## Making and binding -/

theorem newPromise (expr : Node) {env : FrameId} (henv : Shown hidden n env) :
    KeepsScope hidden n anything (Run.make (·.newPromise expr env)) :=
  make fun _ hs hn => ⟨hs.newPromise expr (henv.mono hn), .of_frames_eq rfl, trivial⟩

theorem newContext {c : Context} (hc : Shown hidden n c.env) :
    KeepsScope hidden n anything (Run.make (·.newContext c)) :=
  make fun _ hs hn => ⟨hs.newContext (hc.mono hn), .of_frames_eq rfl, trivial⟩

theorem newFunction : KeepsScope hidden n anything (Run.make Store.newFunction) :=
  make fun _ hs _ => ⟨hs.newFunction, .of_frames_eq rfl, trivial⟩

theorem newFrame {parent : Option FrameId} (hparent : ∀ p, parent = some p → Shown hidden n p)
    (context : Option ContextId) : KeepsScope hidden n (Shown hidden) (Run.make (·.newFrame parent context)) :=
  make fun s hs hn => ⟨hs.newFrame (fun p hp => (hparent p hp).mono hn) context, .newFrame hs parent context,
    hs.shown_size (by simp [Store.newFrame])⟩

theorem newRoot : KeepsScope hidden n (Shown hidden) (Run.make (·.newFrame none none)) := by
  refine newFrame (fun p hp => ?_) none
  cases hp

theorem bindName {env : FrameId} (henv : Shown hidden n env) (name : String) {b : Binding}
    (hb : ∀ v, b = .value v → v.Shown hidden n) : KeepsScope hidden n anything (Run.modifyStore (·.bind env name b)) :=
  modifyStore fun s hs hn => ⟨hs.bind env name fun v hv => (hb v hv).mono hn, .bind s henv.2 name b⟩

end KeepsScope

end

/-! ## Arguments and names -/

/-- An evaluator keeps scopes in the environments that are shown. The missing argument it may be given
anywhere. -/
structure Evaluator.KeepsScope (hidden : FrameId → Prop) (ev : Evaluator) : Prop where
  inside : ∀ {n : Nat} (x : Node) {env : FrameId}, Shown hidden n env →
    Quotation.KeepsScope hidden n (Value.Shown hidden) (ev x env)
  missing : ∀ {n : Nat} (env : FrameId), Quotation.KeepsScope hidden n (Value.Shown hidden) (ev .missing env)

section
variable {hidden : FrameId → Prop} {n : Nat} {env : FrameId}

theorem keepsScope_tailOf : KeepsScope hidden n anything (tailOf env) := by
  refine KeepsScope.readStore fun store _ _ => ?_
  split
  · exact .gives _
  · exact .throw _

theorem keepsScope_tailExprs (tail : List (Arg PromiseId)) : KeepsScope hidden n anything (tailExprs tail) :=
  .readStore fun _ _ _ => .gives _

theorem keepsScope_contextOf : KeepsScope hidden n anything (contextOf env) := by
  refine KeepsScope.readStore fun store _ _ => ?_
  split
  · exact .gives _
  · exact .throw _

theorem keepsScope_captureArgument (name : String) (c : Context) :
    KeepsScope hidden n anything (captureArgument name c) := by
  unfold captureArgument
  split
  · exact (KeepsScope.record _).seq fun _ => .gives _
  · exact .throw _

theorem keepsScope_delayArgs (henv : Shown hidden n env) (args : List (Arg Node)) :
    KeepsScope hidden n anything (delayArgs env args) := by
  induction args with
  | nil => exact .gives _
  | cons a as ih =>
    have hrest (here : List (Arg PromiseId)) : KeepsScope hidden n anything (do return here ++ (← delayArgs env as)) :=
      ih.seq fun _ => .gives _
    unfold delayArgs
    dsimp only
    split
    · exact keepsScope_tailOf.seq hrest
    · exact (KeepsScope.newPromise _ henv).seq fun _ => (KeepsScope.gives _).seq
        hrest

end

section
variable {hidden : FrameId → Prop} {n : Nat} {env : FrameId} {ev : Evaluator} (hev : ev.KeepsScope hidden)
include hev

theorem keepsScope_force (id : PromiseId) : KeepsScope hidden n (Value.Shown hidden) (force ev id) := by
  intro s r s' hs hn h
  have hpromise := hs.promise_cases id
  rw [ends_force] at h
  cases hv : (s.promise id).value with
  | some v =>
    simp only [hv] at h
    obtain ⟨rfl, rfl⟩ := h
    refine ⟨hs, .refl _, fun a ha => ?_⟩
    cases ha
    rcases hpromise with hnone | ⟨_, hshown⟩
    · rw [State.promise, hnone] at hv
      cases hv
    · exact hshown v hv
  | none =>
    simp only [hv] at h
    split at h
    · obtain ⟨rfl, rfl⟩ := h
      refine ⟨hs, .refl _, fun v hv => ?_⟩
      cases hv
    · obtain ⟨t, ht, rfl⟩ := h
      have hbelow : KeepsScope hidden s.store.frames.size (Value.Shown hidden)
          (ev (s.promise id).expr (s.promise id).env) := by
        rcases hpromise with hnone | ⟨henv, _⟩
        · rw [State.promise, hnone]
          exact hev.missing 0
        · exact hev.inside _ henv
      have hmark : (s.mark id true).store.IsScoped hidden := hs.modifyPromise id (fun _ => rfl) fun _ _ hv => .inl hv
      obtain ⟨hscoped, hspares, hgood⟩ := hbelow _ r t hmark (Nat.le_refl _) ht
      obtain ⟨hsettled, hsame⟩ := hscoped.settle id hgood
      have hmarked : s.store.Spares hidden (s.mark id true).store := .of_frames_eq rfl
      refine ⟨hsettled, (hmarked.trans hspares).trans (.of_frames_eq hsame), fun v hv => ?_⟩
      exact hsame ▸ hgood v hv

theorem keepsScope_lookup (name : String) : KeepsScope hidden n (Value.Shown hidden) (lookup ev env name) := by
  refine .readStore fun store hstore _ => ?_
  split
  · rename_i v hget
    obtain ⟨id, f, hf, hb⟩ := Store.exists_frame_of_get? hget
    exact .pure fun m hm => (hstore.value id f name v hf hb).mono hm
  · exact keepsScope_force hev _
  · exact .throw _
  · exact .throw _
  · exact .throw _

theorem keepsScope_forceAll (args : List (Arg PromiseId)) :
    KeepsScope hidden n (EntriesShown hidden) (forceAll ev args) := by
  induction args generalizing n with
  | nil => exact .pure fun _ _ => nofun
  | cons a as ih =>
    exact (keepsScope_force hev a.value).bind fun m v _ hv => ih.bind fun k vs hm hvs =>
      .pure fun _ hk => List.forall_mem_cons.2 ⟨hv.mono (Nat.le_trans hm hk), fun e he => (hvs e he).mono hk⟩

theorem keepsScope_evalArgs (henv : Shown hidden n env) (args : List (Arg Node)) :
    KeepsScope hidden n (EntriesShown hidden) (evalArgs ev env args) := by
  induction args generalizing n with
  | nil => exact .pure fun _ _ => nofun
  | cons a as ih =>
    have hrest (m : Nat) (here : List (Arg Value)) (hn : n ≤ m) (hhere : EntriesShown hidden m here) :
        KeepsScope hidden m (EntriesShown hidden) (do return here ++ (← evalArgs ev env as)) :=
      (ih (henv.mono hn)).bind fun k vs hm hvs => .pure fun _ hk => List.forall_mem_append.2
        ⟨fun e he => (hhere e he).mono (Nat.le_trans hm hk), fun e he => (hvs e he).mono hk⟩
    unfold evalArgs
    dsimp only
    split
    · exact keepsScope_tailOf.seq fun tail => (keepsScope_forceAll hev tail).bind hrest
    · refine (hev.inside _ henv).bind fun m v hn hv => ?_
      have hhere : KeepsScope hidden m (EntriesShown hidden) (pure [⟨a.name, v⟩]) :=
        .pure fun k hk => List.forall_mem_singleton.2 (hv.mono hk)
      exact hhere.bind fun k vs hm => hrest k vs (Nat.le_trans hn hm)

/-! ## Expansion -/

variable (henv : Shown hidden n env) (options : ExpandOptions)

omit hev in
theorem keepsScope_checkDepth (path : Path) (depth : Nat) :
    KeepsScope hidden n anything (Expand.checkDepth options path depth) := by
  unfold Expand.checkDepth
  split
  · exact .throw _
  · exact .gives _

omit hev in
theorem keepsScope_splicedArgs (path : Path) (v : Value) :
    KeepsScope hidden n anything (Expand.splicedArgs options path v) := by
  have hentries (j : Nat) (entries : List (Arg Value)) :
      KeepsScope hidden n anything (Expand.spliceEntries path j entries) := by
    induction entries generalizing j with
    | nil => exact .gives _
    | cons e es ih =>
      unfold Expand.spliceEntries
      split
      · exact (ih _).seq fun _ => .gives _
      · exact .throw _
  unfold Expand.splicedArgs
  split
  · split
    · exact .gives _
    · exact .throw _
  · exact hentries 0 _
  · exact .gives _
  · exact .throw _

include henv

theorem keepsScope_unquote (source : Node) (path : Path) :
    KeepsScope hidden n anything (Expand.unquote ev env source path) := by
  refine (KeepsScope.record _).seq fun _ => ((hev.inside source henv).explain _ _).seq fun v => ?_
  split
  · exact .gives _
  · exact .throw _

theorem keepsScope_splice (source : Node) (path : Path) :
    KeepsScope hidden n anything (Expand.splice ev env options source path) :=
  (KeepsScope.record _).seq fun _ => ((hev.inside source henv).explain _ _).seq fun v =>
    keepsScope_splicedArgs options path v

theorem keepsScope_definitionName (source : Node) (path : Path) :
    KeepsScope hidden n anything (Expand.definitionName ev env source path) := by
  refine ((hev.inside source henv).explain _ _).seq fun v => ?_
  split
  · exact .gives _
  · exact .throw _

mutual
theorem keepsScope_node (path : Path) (depth : Nat) : ∀ t : Template,
    KeepsScope hidden n anything (Expand.node ev env options path depth t)
  | .node x => (keepsScope_checkDepth options _ _).seq fun _ => .gives _
  | .single source => (keepsScope_checkDepth options _ _).seq fun _ => keepsScope_unquote hev henv source path
  | .call head args => by
    refine (keepsScope_checkDepth options _ _).seq fun _ => (keepsScope_node _ _ head).seq fun h => ?_
    have hrest : KeepsScope hidden n anything
        (do return Node.call h (← Expand.argList ev env options path (depth + 1) 0 args)) :=
      (keepsScope_argList path (depth + 1) 0 args).seq fun _ => .gives _
    dsimp only
    split
    · exact (KeepsScope.outcome _).seq fun _ => hrest
    · exact hrest
  | .pairlist args =>
    (keepsScope_checkDepth options _ _).seq fun _ => (keepsScope_argList path (depth + 1) 0 args).seq fun _ =>
      .pure fun _ _ => trivial

theorem keepsScope_argList (path : Path) (depth i : Nat) : ∀ args : List (Part Template),
    KeepsScope hidden n anything (Expand.argList ev env options path depth i args)
  | [] => .pure fun _ _ => trivial
  | .arg _ value :: rest =>
    (keepsScope_node _ _ value).seq fun _ => (keepsScope_argList _ _ _ rest).seq fun _ => .gives _
  | .splice source :: rest =>
    (keepsScope_splice hev henv options source _).seq fun _ => (keepsScope_argList _ _ _ rest).seq fun _ =>
      .pure fun _ _ => trivial
  | .define nameSource value :: rest =>
    (keepsScope_definitionName hev henv nameSource _).seq fun _ => (keepsScope_node _ _ value).seq fun _ =>
      (keepsScope_argList _ _ _ rest).seq fun _ => .gives _
end

theorem keepsScope_quoteExpanding (x : Syntax) : KeepsScope hidden n anything (quoteExpanding ev env x) :=
  (KeepsScope.outcome _).seq fun t => keepsScope_node hev henv {} [] 0 t

theorem keepsScope_buildCall (c : Callee) (args : List (Part Template)) :
    KeepsScope hidden n anything (buildCall ev env options c args) :=
  (KeepsScope.outcome _).seq fun _ => (KeepsScope.record _).seq fun _ =>
    (KeepsScope.outcome _).seq fun t => keepsScope_node hev henv options [] 0 t

omit henv in
/-- Explicit arguments are filled in where the call stands, if there is a tail at all. -/
theorem keepsScope_captureAll {c : Context} (hc : c.tail ≠ none → Shown hidden n c.env) (explicit : List (Arg Syntax)) :
    KeepsScope hidden n anything (captureAll ev c explicit) := by
  unfold captureAll
  split
  · exact .throw _
  · rename_i tail htail
    have henv : Shown hidden n c.env := hc (by simp [htail])
    exact (keepsScope_quoteExpanding hev henv _).seq fun _ => (keepsScope_tailExprs tail).seq fun _ =>
      (KeepsScope.record _).seq fun _ => .gives _

end

end Quotation
