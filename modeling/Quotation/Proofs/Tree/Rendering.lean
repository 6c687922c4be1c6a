import Quotation.Template.Basic
/-!
# Quoting and rendering

Quoting a rendered node gives the node back. The other way round, syntax that is
quoted and rendered comes back in a normal form: `markCalls` turns each
application of `!!` or `!!!` to one unnamed argument into the marker, at every
depth, and changes nothing else. So two pieces of syntax spell the same node
exactly when their normal forms agree.

Both `render` and `markCalls` put an application together with `applyMarked`,
and `quote` does not see the difference (`quote_applyMarked`).
-/

namespace Quotation

/-- Changing the values of a list of arguments changes nothing if it changes none
of the values. -/
theorem Arg.map_map_eq_self_iff {α : Type} {f : α → α} {args : List (Arg α)} :
    args.map (Arg.map f) = args ↔ ∀ a ∈ args, f a.value = a.value := by
  induction args with
  | nil => simp
  | cons a as ih =>
    obtain ⟨name, value⟩ := a
    simp [Arg.map, ih]

namespace Syntax

/-! ## Induction -/

mutual
theorem forall_of_args {P : Syntax → Prop} (literal : ∀ c, P (.literal c)) (ident : ∀ name, P (.ident name))
    (apply : ∀ head args, P head → (∀ a ∈ args, P a.value) → P (.apply head args))
    (list : ∀ args, (∀ a ∈ args, P a.value) → P (.list args))
    (unquote : ∀ e, P e → P (.unquote e)) (splice : ∀ e, P e → P (.splice e)) : ∀ s, P s
  | .literal c => literal c
  | .ident name => ident name
  | .apply head args => apply head args (forall_of_args literal ident apply list unquote splice head)
      (forall_mem_of_args literal ident apply list unquote splice args)
  | .list args => list args (forall_mem_of_args literal ident apply list unquote splice args)
  | .unquote e => unquote e (forall_of_args literal ident apply list unquote splice e)
  | .splice e => splice e (forall_of_args literal ident apply list unquote splice e)

theorem forall_mem_of_args {P : Syntax → Prop} (literal : ∀ c, P (.literal c))
    (ident : ∀ name, P (.ident name))
    (apply : ∀ head args, P head → (∀ a ∈ args, P a.value) → P (.apply head args))
    (list : ∀ args, (∀ a ∈ args, P a.value) → P (.list args))
    (unquote : ∀ e, P e → P (.unquote e)) (splice : ∀ e, P e → P (.splice e)) :
    ∀ args : List (Arg Syntax), ∀ a ∈ args, P a.value
  | [], _, h => nomatch h
  | b :: bs, a, h => by
    cases h with
    | head => exact forall_of_args literal ident apply list unquote splice b.value
    | tail _ h => exact forall_mem_of_args literal ident apply list unquote splice bs a h
end

/-- Induction on syntax, with the hypothesis for each argument of an application
or list. -/
@[induction_eliminator]
theorem inductionOn {P : Syntax → Prop} (s : Syntax) (literal : ∀ c, P (.literal c))
    (ident : ∀ name, P (.ident name))
    (apply : ∀ head args, P head → (∀ a ∈ args, P a.value) → P (.apply head args))
    (list : ∀ args, (∀ a ∈ args, P a.value) → P (.list args))
    (unquote : ∀ e, P e → P (.unquote e)) (splice : ∀ e, P e → P (.splice e)) : P s :=
  forall_of_args literal ident apply list unquote splice s

/-- Induction on syntax that also has the hypothesis for the right side of a definition
among the arguments, which is an argument of an argument. -/
theorem inductionOnDefinitions {P : Syntax → Prop} (s : Syntax) (literal : ∀ c, P (.literal c))
    (ident : ∀ name, P (.ident name))
    (apply : ∀ head args, P head → (∀ a ∈ args, P a.value) →
      (∀ a ∈ args, ∀ lhs rhs, a.value = .define lhs rhs → P rhs) → P (.apply head args))
    (list : ∀ args, (∀ a ∈ args, P a.value) → (∀ a ∈ args, ∀ lhs rhs, a.value = .define lhs rhs → P rhs) →
      P (.list args))
    (unquote : ∀ e, P e → P (.unquote e)) (splice : ∀ e, P e → P (.splice e)) : P s := by
  -- The right side is two levels down, out of reach of the plain induction.
  have both : P s ∧ ∀ lhs rhs, s = .define lhs rhs → P rhs := by
    induction s with
    | literal c => exact ⟨literal c, nofun⟩
    | ident name => exact ⟨ident name, nofun⟩
    | apply head args ihh iha =>
      refine ⟨apply head args ihh.1 (fun a ha => (iha a ha).1) fun a ha => (iha a ha).2, fun lhs rhs h => ?_⟩
      cases h
      exact (iha _ (.tail _ (.head _))).1
    | list args iha => exact ⟨list args (fun a ha => (iha a ha).1) fun a ha => (iha a ha).2, nofun⟩
    | unquote e ih => exact ⟨unquote e ih.1, nofun⟩
    | splice e ih => exact ⟨splice e ih.1, nofun⟩
  exact both.1

theorem quoteArgs_eq_map (args : List (Arg Syntax)) : quoteArgs args = args.map (Arg.map quote) := by
  induction args with
  | nil => rfl
  | cons a as ih => simp [quoteArgs, ih, Arg.map]

/-! ## The normal form -/

/-- Whether an application is a call of `!!` or `!!!` with one argument, unnamed. -/
def isMarkerCall : Syntax → List (Arg Syntax) → Bool
  | ident op, [⟨none, _⟩] => op == unquoteName || op == spliceName
  | _, _ => false

/-- An application, or the marker that it is a call of. -/
def applyMarked : Syntax → List (Arg Syntax) → Syntax
  | ident op, [⟨none, x⟩] =>
    if op = unquoteName then unquote x
    else if op = spliceName then splice x
    else apply (ident op) [⟨none, x⟩]
  | head, args => apply head args

mutual
/-- The syntax with each call of a marker turned into the marker. -/
def markCalls : Syntax → Syntax
  | literal c => literal c
  | ident name => ident name
  | apply head args => applyMarked head.markCalls (markCallsArgs args)
  | list args => list (markCallsArgs args)
  | unquote expr => unquote expr.markCalls
  | splice expr => splice expr.markCalls

def markCallsArgs : List (Arg Syntax) → List (Arg Syntax)
  | [] => []
  | a :: as => ⟨a.name, a.value.markCalls⟩ :: markCallsArgs as
end

mutual
/-- Whether there is a call of a marker anywhere, operands of markers included. -/
def callsMarker : Syntax → Bool
  | literal _ => false
  | ident _ => false
  | apply head args => isMarkerCall head args || head.callsMarker || anyCallsMarker args
  | list args => anyCallsMarker args
  | unquote expr => expr.callsMarker
  | splice expr => expr.callsMarker

def anyCallsMarker : List (Arg Syntax) → Bool
  | [] => false
  | a :: as => a.value.callsMarker || anyCallsMarker as
end

theorem markCallsArgs_eq_map (args : List (Arg Syntax)) :
    markCallsArgs args = args.map (Arg.map markCalls) := by
  induction args with
  | nil => rfl
  | cons a as ih => simp [markCallsArgs, ih, Arg.map]

theorem anyCallsMarker_eq_false_iff {args : List (Arg Syntax)} :
    anyCallsMarker args = false ↔ ∀ a ∈ args, a.value.callsMarker = false := by
  induction args with
  | nil => simp [anyCallsMarker]
  | cons a as ih => simp [anyCallsMarker, ih]

/-- A call of a marker is the only application that changes. -/
theorem applyMarked_eq_apply_iff {head : Syntax} {args : List (Arg Syntax)} :
    applyMarked head args = apply head args ↔ isMarkerCall head args = false := by
  unfold applyMarked isMarkerCall
  split
  · rename_i op x
    by_cases hu : op = unquoteName
    · simp [hu]
    · by_cases hs : op = spliceName
      · simp [hs, spliceName, unquoteName]
      · simp [hu, hs]
  · simp

theorem applyMarked_of_ne_ident {head : Syntax} {args : List (Arg Syntax)} (h : ∀ op, head ≠ ident op) :
    applyMarked head args = apply head args := by
  unfold applyMarked
  split
  · exact absurd rfl (h _)
  · rfl

theorem of_applyMarked_eq_apply {head head' : Syntax} {args args' : List (Arg Syntax)}
    (h : applyMarked head args = apply head' args') : head = head' ∧ args = args' := by
  unfold applyMarked at h
  split at h
  · split at h
    · cases h
    · split at h
      · cases h
      · cases h
        exact ⟨rfl, rfl⟩
  · cases h
    exact ⟨rfl, rfl⟩

theorem quote_applyMarked (head : Syntax) (args : List (Arg Syntax)) :
    (applyMarked head args).quote = .call head.quote (quoteArgs args) := by
  unfold applyMarked
  split
  · rename_i op x
    by_cases hu : op = unquoteName
    · simp [hu, quote, quoteArgs, Arg.unnamed]
    · by_cases hs : op = spliceName
      · simp [hs, quote, quoteArgs, Arg.unnamed, spliceName, unquoteName]
      · simp [hu, hs, quote]
  · rfl

theorem markCallsArgs_eq_self_iff {args : List (Arg Syntax)} :
    markCallsArgs args = args ↔ ∀ a ∈ args, a.value.markCalls = a.value := by
  rw [markCallsArgs_eq_map, Arg.map_map_eq_self_iff]

/-- The normal form of syntax is the syntax itself if it calls no marker. -/
theorem markCalls_eq_self_iff {s : Syntax} : s.markCalls = s ↔ s.callsMarker = false := by
  induction s with
  | literal c => simp [markCalls, callsMarker]
  | ident name => simp [markCalls, callsMarker]
  | apply head args ihh iha =>
    simp only [markCalls, callsMarker, Bool.or_eq_false_iff, anyCallsMarker_eq_false_iff]
    have hargs : markCallsArgs args = args ↔ ∀ a ∈ args, a.value.callsMarker = false :=
      markCallsArgs_eq_self_iff.trans (forall₂_congr iha)
    constructor
    · intro h
      -- An application that stays one keeps its head and arguments, so the test sees the same ones.
      obtain ⟨hh, ha⟩ := of_applyMarked_eq_apply h
      rw [hh, ha, applyMarked_eq_apply_iff] at h
      exact ⟨⟨h, ihh.1 hh⟩, hargs.1 ha⟩
    · rintro ⟨⟨h, hh⟩, ha⟩
      rw [ihh.2 hh, hargs.2 ha, applyMarked_eq_apply_iff]
      exact h
  | list args iha =>
    simp only [markCalls, callsMarker, anyCallsMarker_eq_false_iff, list.injEq]
    exact markCallsArgs_eq_self_iff.trans (forall₂_congr iha)
  | unquote e ih => simp [markCalls, callsMarker, ih]
  | splice e ih => simp [markCalls, callsMarker, ih]

end Syntax

/-! ## Rendering a node and quoting it again -/

namespace Node

theorem renderArgs_eq_map (args : List (Arg Node)) : renderArgs args = args.map (Arg.map render) := by
  induction args with
  | nil => rfl
  | cons a as ih => simp [renderArgs, ih, Arg.map]

theorem render_ne_ident {n : Node} (h : ∀ op, n ≠ symbol op) (op : String) : n.render ≠ .ident op := by
  cases n with
  | const c => simp [render]
  | symbol name => exact absurd rfl (h name)
  | call head args =>
    rcases args with _ | ⟨⟨_ | name, x⟩, _ | ⟨b, bs⟩⟩
    case call.cons.none.nil =>
      rw [render]
      split
      · simp
      · split <;> simp
    all_goals simp [render]
  | pairlist args => simp [render]

theorem render_call (head : Node) (args : List (Arg Node)) :
    (call head args).render = .applyMarked head.render (renderArgs args) := by
  -- Only a symbol is rendered as an identifier, so only then can the call be a marker.
  by_cases h : ∃ op, head = symbol op
  · obtain ⟨op, rfl⟩ := h
    rcases args with _ | ⟨⟨_ | name, x⟩, _ | ⟨b, bs⟩⟩ <;>
      simp [render, renderArgs, Syntax.applyMarked, Arg.unnamed]
  · have hne : ∀ op, head ≠ symbol op := fun op e => h ⟨op, e⟩
    rw [Syntax.applyMarked_of_ne_ident (render_ne_ident hne)]
    rcases args with _ | ⟨⟨_ | name, x⟩, _ | ⟨b, bs⟩⟩ <;> simp [render, renderArgs, hne, Arg.unnamed]

theorem quoteArgs_renderArgs {args : List (Arg Node)} (h : ∀ a ∈ args, a.value.render.quote = a.value) :
    Syntax.quoteArgs (renderArgs args) = args := by
  induction args with
  | nil => rfl
  | cons a as ih =>
    rw [renderArgs, Syntax.quoteArgs, h a List.mem_cons_self, ih fun b hb => h b (List.mem_cons_of_mem a hb)]

/-- A rendered node spells the node. -/
theorem quote_render (n : Node) : n.render.quote = n := by
  induction n with
  | const c => rfl
  | symbol name => rfl
  | call head args ihh iha => rw [render_call, Syntax.quote_applyMarked, ihh, quoteArgs_renderArgs iha]
  | pairlist args iha => rw [render, Syntax.quote, quoteArgs_renderArgs iha]

end Node

/-! ## Quoting syntax and rendering it again -/

namespace Syntax

theorem renderArgs_quoteArgs {args : List (Arg Syntax)}
    (h : ∀ a ∈ args, a.value.quote.render = a.value.markCalls) :
    Node.renderArgs (quoteArgs args) = markCallsArgs args := by
  induction args with
  | nil => rfl
  | cons a as ih =>
    rw [quoteArgs, Node.renderArgs, markCallsArgs, h a List.mem_cons_self,
      ih fun b hb => h b (List.mem_cons_of_mem a hb)]

/-- Syntax that is quoted and rendered comes back in normal form. -/
theorem render_quote (s : Syntax) : s.quote.render = s.markCalls := by
  induction s with
  | literal c => rfl
  | ident name => rfl
  | apply head args ihh iha => rw [quote, Node.render_call, ihh, renderArgs_quoteArgs iha, markCalls]
  | list args iha => rw [quote, Node.render, renderArgs_quoteArgs iha, markCalls]
  | unquote e ih => simp [quote, Node.render, markCalls, Arg.unnamed, ih]
  | splice e ih => simp [quote, Node.render, markCalls, Arg.unnamed, ih, spliceName, unquoteName]

theorem quote_markCalls (s : Syntax) : s.markCalls.quote = s.quote := by
  rw [← render_quote, Node.quote_render]

/-- Two pieces of syntax spell one node exactly if their normal forms agree. -/
theorem quote_eq_quote_iff {s t : Syntax} : s.quote = t.quote ↔ s.markCalls = t.markCalls := by
  constructor
  · intro h
    rw [← render_quote, ← render_quote, h]
  · intro h
    rw [← quote_markCalls s, ← quote_markCalls t, h]

end Syntax

/-- Quoting and rendering are inverse up to the normal form of syntax: a rendered
node is quoted to itself; quoted syntax is rendered in normal form; the normal form
differs from the syntax only where a marker is called; and syntax is quoted alike
exactly if the normal forms agree. So the template of quoted syntax, or the failure
to read one, is that of the normal form. -/
theorem quote_render_inverse :
    (∀ n : Node, n.render.quote = n) ∧
    (∀ s : Syntax, s.quote.render = s.markCalls) ∧
    (∀ s : Syntax, s.markCalls = s ↔ s.callsMarker = false) ∧
    (∀ s t : Syntax, s.quote = t.quote ↔ s.markCalls = t.markCalls) ∧
    ∀ s : Syntax, Template.ofNode s.quote = Template.ofSyntax s.markCalls := by
  refine ⟨Node.quote_render, Syntax.render_quote, fun _ => Syntax.markCalls_eq_self_iff,
    fun _ _ => Syntax.quote_eq_quote_iff, fun s => ?_⟩
  rw [Template.ofNode, Syntax.render_quote]

end Quotation
