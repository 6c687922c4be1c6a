import Quotation.Eval.Evaluator
import Quotation.Proofs.Template.Conversion
import Quotation.Proofs.Template.Hole
import Quotation.Proofs.Tree.Rendering
/-!
# Quasiquotation is substitution

`Filled` says what syntax becomes when the markers at its template positions are
filled in, one after the other, without any template: the operands are evaluated,
and what they give is put in place as syntax. Quoting with expansion then gives the
node that the filled syntax spells (`quoteExpanding_eq_quote_filled`). What has been
put in place is spelled out as it is, so markers in it stay calls.
-/

namespace Quotation

namespace Syntax

/-! ## Filled syntax -/

/-- The name that the left side of a definition gives: the value of what is unquoted,
an identifier as it is, or the value of the side itself. -/
inductive NameOf (ev : Evaluator) (env : FrameId) : State → Syntax → State → String → Prop
  | unquote {s e v t name} : (ev e.quote env).Ends s (.ok v) t → v.NamesArg name →
      NameOf ev env s (.unquote e) t name
  | ident {s name} : name ≠ "" → NameOf ev env s (.ident name) s name
  | value {s lhs v t name} : (∀ e, lhs ≠ .unquote e) → (∀ name, lhs = .ident name → name = "") →
      (ev lhs.quote env).Ends s (.ok v) t → v.NamesArg name → NameOf ev env s lhs t name

mutual
/-- What syntax at a place becomes when its markers are filled in, and the state that
this leads to. -/
inductive Filled (ev : Evaluator) (env : FrameId) : Path → State → Syntax → State → Syntax → Prop
  | literal {path s c} : Filled ev env path s (.literal c) s (.literal c)
  | ident {path s name} : Filled ev env path s (.ident name) s (.ident name)
  | unquote {path s e v s' n} :
      (ev e.quote env).Ends (s.logging (.unquoting e.quote path)) (.ok v) s' → v.toNode? = some n →
      Filled ev env path s (.unquote e) s' n.render
  | apply {path s head t head' args s' args'} : Filled ev env (path ++ [.head]) s head t head' →
      FilledArgs ev env path 0 t args s' args' →
      Filled ev env path s (.apply head args) s' (.apply head' args')
  | list {path s args s' args'} : FilledArgs ev env path 0 s args s' args' →
      Filled ev env path s (.list args) s' (.list args')

/-- The same of arguments, the first of which has the given index. -/
inductive FilledArgs (ev : Evaluator) (env : FrameId) :
    Path → Nat → State → List (Arg Syntax) → State → List (Arg Syntax) → Prop
  | nil {path i s} : FilledArgs ev env path i s [] s []
  | splice {path i s e v t as rest s' rest'} :
      (ev e.quote env).Ends (s.logging (.splicing e.quote (path ++ [.arg i]))) (.ok v) t →
      v.SplicesTo as → FilledArgs ev env path (i + 1) t rest s' rest' →
      FilledArgs ev env path i s (⟨none, .splice e⟩ :: rest) s' (as.map (Arg.map Node.render) ++ rest')
  | define {path i s lhs t name rhs u rhs' rest s' rest'} : NameOf ev env s lhs t name →
      Filled ev env (path ++ [.arg i]) t rhs u rhs' → FilledArgs ev env path (i + 1) u rest s' rest' →
      FilledArgs ev env path i s (⟨none, .define lhs rhs⟩ :: rest) s' (.named name rhs' :: rest')
  | arg {path i s a t value' rest s' rest'} : a.isDefinition = false →
      Filled ev env (path ++ [.arg i]) s a.value t value' →
      FilledArgs ev env path (i + 1) t rest s' rest' →
      FilledArgs ev env path i s (a :: rest) s' (⟨a.name, value'⟩ :: rest')
end

end Syntax

open Run Syntax

variable {ev : Evaluator} {env : FrameId}

/-! ## Expanding is filling -/

/-- Constants are their own values, and evaluating one changes nothing. -/
def Evaluator.FixesConstants (ev : Evaluator) : Prop :=
  ∀ c env s r s', (ev (.const c) env).Ends s r s' → r = .ok (.scalar c) ∧ s' = s

theorem eval_fixesConstants (depth : Nat) : (eval depth).FixesConstants := by
  intro c env s r s' h
  cases depth with
  | zero => exact (not_ends_cutOff h).elim
  | succ depth => exact ends_pure.1 h

theorem nameOf_of_ends (hev : ev.FixesConstants) {lhs : Syntax} {path : Path} {s s' : State} {name : String}
    (h : (Expand.definitionName ev env (Template.nameSource lhs) path).Ends s (.ok name) s') :
    NameOf ev env s lhs s' name := by
  obtain ⟨v, hv, hname⟩ := Expand.ends_definitionName_ok.1 h
  unfold Template.nameSource at hv
  split at hv
  · exact .unquote hv hname
  · rename_i ident
    -- An identifier was made a text constant, which evaluates to itself; one without a name was not.
    by_cases hident : ident = ""
    · subst hident
      exact .value nofun (fun _ h => by cases h; rfl) hv hname
    · rw [if_neg (by simpa using hident)] at hv
      obtain ⟨hval, rfl⟩ := hev _ _ _ _ _ hv
      cases hval
      cases hname
      exact .ident hident
  · rename_i hunquote hident
    exact .value hunquote (fun name h => absurd h (hident name)) hv hname

/-- What expanding the template of a piece of syntax gives is spelled by the filled
syntax. -/
def Fills (ev : Evaluator) (env : FrameId) (x : Syntax) : Prop :=
  ∀ {path t options depth s n s'}, Template.ofSyntaxAt path x = .ok t →
    (Expand.node ev env options path depth t).Ends s (.ok n) s' →
    ∃ x', Filled ev env path s x s' x' ∧ n = x'.quote

theorem quoteArgs_append_rendered (as : List (Arg Node)) (rest : List (Arg Syntax)) :
    quoteArgs (as.map (Arg.map Node.render) ++ rest) = as ++ quoteArgs rest := by
  rw [quoteArgs_eq_map, quoteArgs_eq_map, List.map_append, ← quoteArgs_eq_map, ← Node.renderArgs_eq_map,
    Node.quoteArgs_renderArgs fun a _ => Node.quote_render a.value]

theorem fills_args (hev : ev.FixesConstants) {args : List (Arg Syntax)}
    (hargs : ∀ a ∈ args, Fills ev env a.value)
    (hrhs : ∀ a ∈ args, ∀ lhs rhs, a.value = .define lhs rhs → Fills ev env rhs)
    {path : Path} {i : Nat} {parts : List (Part Template)} {options : ExpandOptions} {depth : Nat}
    {s s' : State} {as : List (Arg Node)} (hparts : Template.partsAt path i args = .ok parts)
    (h : (Expand.argList ev env options path depth i parts).Ends s (.ok as) s') :
    ∃ args', FilledArgs ev env path i s args s' args' ∧ as = quoteArgs args' := by
  induction args generalizing i parts s as with
  | nil =>
    rw [Template.partsAt_nil_eq_ok hparts] at h
    simp only [Expand.argList, ends_pure, Except.ok.injEq] at h
    obtain ⟨rfl, rfl⟩ := h
    exact ⟨[], .nil, rfl⟩
  | cons a rest ih =>
    obtain ⟨p, ps, hp, hps, rfl⟩ := Template.partsAt_cons_eq_ok hparts
    replace ih := @ih (fun b hb => hargs b (List.mem_cons_of_mem a hb))
      (fun b hb => hrhs b (List.mem_cons_of_mem a hb))
    cases hp with
    | splice =>
      simp only [Expand.argList, ends_bind_ok, ends_pure] at h
      obtain ⟨bs, t, hbs, cs, u, hcs, has, rfl⟩ := h
      obtain ⟨v, hv, hto⟩ := Expand.splicesTo_of_ends_splice hbs
      obtain ⟨rest', hrest, rfl⟩ := ih hps hcs
      cases has
      exact ⟨_, .splice hv hto hrest, (quoteArgs_append_rendered bs rest').symm⟩
    | define ht =>
      simp only [Expand.argList, ends_bind_ok, ends_pure] at h
      obtain ⟨name, t, hname, n, u, hn, cs, _, hcs, has, rfl⟩ := h
      obtain ⟨rhs', hrhs', rfl⟩ := hrhs _ List.mem_cons_self _ _ rfl ht hn
      obtain ⟨rest', hrest, rfl⟩ := ih hps hcs
      cases has
      exact ⟨_, .define (nameOf_of_ends hev hname) hrhs' hrest, rfl⟩
    | arg hdef ht =>
      simp only [Expand.argList, ends_bind_ok, ends_pure] at h
      obtain ⟨n, t, hn, cs, u, hcs, has, rfl⟩ := h
      obtain ⟨value', hvalue, rfl⟩ := hargs _ List.mem_cons_self ht hn
      obtain ⟨rest', hrest, rfl⟩ := ih hps hcs
      cases has
      exact ⟨_, .arg hdef hvalue hrest, rfl⟩

theorem fills (hev : ev.FixesConstants) (x : Syntax) : Fills ev env x := by
  induction x using Syntax.inductionOnDefinitions with
  | literal c =>
    intro path t options depth s n s' ht h
    unfold Template.ofSyntaxAt at ht
    cases ht
    obtain ⟨-, rfl, rfl⟩ := Expand.ends_node_ok.1 h
    exact ⟨_, .literal, rfl⟩
  | ident name =>
    intro path t options depth s n s' ht h
    unfold Template.ofSyntaxAt at ht
    cases ht
    obtain ⟨-, rfl, rfl⟩ := Expand.ends_node_ok.1 h
    exact ⟨_, .ident, rfl⟩
  | apply head args ihh iha ihr =>
    intro path t options depth s n s' ht h
    unfold Template.ofSyntaxAt at ht
    obtain ⟨th, hth, ht⟩ := bind_eq_ok_iff.1 ht
    obtain ⟨ps, hps, ht⟩ := bind_eq_ok_iff.1 ht
    cases ht
    -- Filling counts no levels, so it does not matter which options expanded the parts.
    obtain ⟨options', -, n, u, as, hn, has, rfl⟩ := Expand.ends_apply_ok h
    obtain ⟨head', hhead, rfl⟩ := ihh hth hn
    obtain ⟨args', hargs, rfl⟩ := fills_args hev iha ihr hps has
    exact ⟨_, .apply hhead hargs, rfl⟩
  | list args iha ihr =>
    intro path t options depth s n s' ht h
    unfold Template.ofSyntaxAt at ht
    obtain ⟨ps, hps, ht⟩ := bind_eq_ok_iff.1 ht
    cases ht
    obtain ⟨options', -, as, has, rfl⟩ := Expand.ends_ofArgs_ok h
    obtain ⟨args', hargs, rfl⟩ := fills_args hev iha ihr hps has
    exact ⟨_, .list hargs, rfl⟩
  | unquote e ih =>
    intro path t options depth s n s' ht h
    unfold Template.ofSyntaxAt at ht
    cases ht
    obtain ⟨v, hv, hn⟩ := Expand.ends_unquote_ok.1 (Expand.ends_single_ok.1 h).2
    exact ⟨_, .unquote hv hn, (Node.quote_render _).symm⟩
  | splice e ih =>
    intro path t options depth s n s' ht h
    unfold Template.ofSyntaxAt at ht
    cases ht

/-! ## Syntax is filled in one way -/

theorem Arg.eq_of_maps_eq {α : Type} {as bs : List (Arg α)} (hnames : as.map (·.name) = bs.map (·.name))
    (hvalues : as.map (some ·.value) = bs.map (some ·.value)) : as = bs := by
  induction as generalizing bs with
  | nil =>
    cases bs with
    | nil => rfl
    | cons b bs => cases hnames
  | cons a as ih =>
    cases bs with
    | nil => cases hnames
    | cons b bs =>
      obtain ⟨_, _⟩ := a
      obtain ⟨_, _⟩ := b
      simp only [List.map_cons, List.cons.injEq, Option.some.injEq] at hnames hvalues
      rw [hnames.1, hvalues.1, ih hnames.2 hvalues.2]

theorem Value.SplicesTo.unique {v : Value} {as bs : List (Arg Node)} (h : v.SplicesTo as) (h' : v.SplicesTo bs) :
    as = bs := by
  cases h with
  | null =>
    cases h'
    rfl
  | pairlist =>
    cases h'
    rfl
  | list values names =>
    cases h' with
    | list values' names' =>
      exact Arg.eq_of_maps_eq (names.trans names'.symm) (values.symm.trans values')

theorem Value.NamesArg.unique {v : Value} {m n : String} (h : v.NamesArg m) (h' : v.NamesArg n) : m = n := by
  cases h <;> cases h' <;> rfl

theorem Syntax.NameOf.unique {lhs : Syntax} {s t t' : State} {m n : String} (h : NameOf ev env s lhs t m)
    (h' : NameOf ev env s lhs t' n) : t = t' ∧ m = n := by
  cases h with
  | unquote hv hm =>
    cases h' with
    | unquote hv' hn =>
      obtain ⟨hval, rfl⟩ := hv.unique hv'
      cases hval
      exact ⟨rfl, hm.unique hn⟩
    | value hne => exact absurd rfl (hne _)
  | ident hm =>
    cases h' with
    | ident => exact ⟨rfl, rfl⟩
    | value _ hne => exact absurd (hne _ rfl) hm
  | value hne hident hv hm =>
    cases h' with
    | unquote => exact absurd rfl (hne _)
    | ident hn => exact absurd (hident _ rfl) hn
    | value _ _ hv' hn =>
      obtain ⟨hval, rfl⟩ := hv.unique hv'
      cases hval
      exact ⟨rfl, hm.unique hn⟩

/-- Filling a piece of syntax from a state leads to one result at most. -/
def FilledOnce (ev : Evaluator) (env : FrameId) (x : Syntax) : Prop :=
  ∀ {path s t u y z}, Filled ev env path s x t y → Filled ev env path s x u z → t = u ∧ y = z

theorem filledArgs_unique {args : List (Arg Syntax)} (hargs : ∀ a ∈ args, FilledOnce ev env a.value)
    (hrhs : ∀ a ∈ args, ∀ lhs rhs, a.value = .define lhs rhs → FilledOnce ev env rhs)
    {path : Path} {i : Nat} {s t u : State} {ys zs : List (Arg Syntax)}
    (h : FilledArgs ev env path i s args t ys) (h' : FilledArgs ev env path i s args u zs) : t = u ∧ ys = zs := by
  induction args generalizing i s t u ys zs with
  | nil =>
    cases h
    cases h'
    exact ⟨rfl, rfl⟩
  | cons a rest ih =>
    replace ih := @ih (fun b hb => hargs b (List.mem_cons_of_mem a hb))
      (fun b hb => hrhs b (List.mem_cons_of_mem a hb))
    cases h with
    | splice hv has hrest =>
      cases h' with
      | splice hv' has' hrest' =>
        obtain ⟨hval, rfl⟩ := hv.unique hv'
        cases hval
        obtain ⟨rfl, rfl⟩ := ih hrest hrest'
        rw [has.unique has']
        exact ⟨rfl, rfl⟩
      -- A splice is no template position, so it cannot be filled as an argument.
      | arg _ hvalue => cases hvalue
    | define hname hvalue hrest =>
      cases h' with
      | define hname' hvalue' hrest' =>
        obtain ⟨rfl, rfl⟩ := hname.unique hname'
        obtain ⟨rfl, rfl⟩ := hrhs _ List.mem_cons_self _ _ rfl hvalue hvalue'
        obtain ⟨rfl, rfl⟩ := ih hrest hrest'
        exact ⟨rfl, rfl⟩
      | arg hdef => cases hdef
    | arg hdef hvalue hrest =>
      cases h' with
      | splice => cases hvalue
      | define => cases hdef
      | arg _ hvalue' hrest' =>
        obtain ⟨rfl, rfl⟩ := hargs _ List.mem_cons_self hvalue hvalue'
        obtain ⟨rfl, rfl⟩ := ih hrest hrest'
        exact ⟨rfl, rfl⟩

theorem filledOnce (x : Syntax) : FilledOnce ev env x := by
  induction x using Syntax.inductionOnDefinitions with
  | literal c =>
    intro path s t u y z h h'
    cases h
    cases h'
    exact ⟨rfl, rfl⟩
  | ident name =>
    intro path s t u y z h h'
    cases h
    cases h'
    exact ⟨rfl, rfl⟩
  | apply head args ihh iha ihr =>
    intro path s t u y z h h'
    cases h with
    | apply hhead hargs =>
      cases h' with
      | apply hhead' hargs' =>
        obtain ⟨rfl, rfl⟩ := ihh hhead hhead'
        obtain ⟨rfl, rfl⟩ := filledArgs_unique iha ihr hargs hargs'
        exact ⟨rfl, rfl⟩
  | list args iha ihr =>
    intro path s t u y z h h'
    cases h with
    | list hargs =>
      cases h' with
      | list hargs' =>
        obtain ⟨rfl, rfl⟩ := filledArgs_unique iha ihr hargs hargs'
        exact ⟨rfl, rfl⟩
  | unquote e ih =>
    intro path s t u y z h h'
    cases h with
    | unquote hv hn =>
      cases h' with
      | unquote hv' hn' =>
        obtain ⟨hval, rfl⟩ := hv.unique hv'
        cases hval
        cases hn.symm.trans hn'
        exact ⟨rfl, rfl⟩
  | splice e ih => exact nofun

/-! ## Quasiquotation -/

/-- Where quoting with expansion gives a node, it is the node that the filled syntax
spells, and the state is the one that filling leads to. There is no other way to fill
the syntax. -/
theorem quoteExpanding_eq_quote_filled {depth : Nat} {x : Syntax} {s s' : State} {n : Node}
    (h : (quoteExpanding (eval depth) env x).Ends s (.ok n) s') :
    ∃ x', Filled (eval depth) env [] s x s' x' ∧ n = x'.quote ∧
      ∀ t y, Filled (eval depth) env [] s x t y → t = s' ∧ y = x' := by
  obtain ⟨t, u, ht, hexpand⟩ := ends_bind_ok.1 h
  obtain ⟨hread, rfl⟩ := ends_ofExcept.1 ht
  obtain ⟨x', hx', hn⟩ := fills (eval_fixesConstants depth) x hread.symm hexpand
  exact ⟨x', hx', hn, fun t y hy => filledOnce x hy hx'⟩

/-- In `f(!!!xs, !!k := !!v)` the list `xs` has a named entry and one with an empty name, and
`v` is a call of `!!`, which stays one. -/
theorem quoteExpanding_eq_quote_filled_call : ∃ x s s' n x',
    (quoteExpanding (eval 2) 0 x).Ends s (.ok n) s' ∧ Filled (eval 2) 0 [] s x s' x' ∧ n = x'.quote ∧
      n = .call (.symbol "f") [.named "a" (.const (.number (.int 1))), .unnamed (.const (.number (.int 2))),
        .named "key" (.call (.symbol "!!") [.unnamed (.symbol "z")])] := by
  let x : Syntax := .apply (.ident "f") [.unnamed (.splice (.ident "xs")),
    .unnamed (.define (.unquote (.ident "k")) (.unquote (.ident "v")))]
  let s := State.ofBindings
    [("xs", .value (.list [⟨some "a", .ofInt 1⟩, ⟨some "", .ofInt 2⟩])), ("k", .value (.ofString "key")),
      ("v", .value (.lang (.call (.symbol "!!") [.unnamed (.symbol "z")])))]
  let s' := (s.logging (.splicing (.symbol "xs") [.arg 0])).logging (.unquoting (.symbol "v") [.arg 1])
  have h : (quoteExpanding (eval 2) 0 x).Ends s (.ok (.call (.symbol "f") [.named "a" (.const (.number (.int 1))),
      .unnamed (.const (.number (.int 2))), .named "key" (.call (.symbol "!!") [.unnamed (.symbol "z")])])) s' := rfl
  obtain ⟨x', hx', hn, _⟩ := quoteExpanding_eq_quote_filled h
  exact ⟨x, s, s', _, x', h, hx', hn, rfl⟩

end Quotation
