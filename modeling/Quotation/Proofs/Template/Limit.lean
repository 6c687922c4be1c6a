import Quotation.Proofs.Template.Blame
import Quotation.Proofs.Template.Conversion
/-!
# What the options of an expansion restrict

The level of a place counts the calls and lists above it (`Position`). Expansion fails at
the first place whose level is over the limit, which is one level below it
(`raises_node`), and it never gets past such a place. The options decide nothing else. Two
runs with different options agree unless the first one is refused by its options
(`agrees_node`): what they agree on at single checks and splices they agree on altogether.
-/

namespace Quotation

/-! ## Runs -/

namespace Run

variable {α β : Type}

/-- Every failure of the run is of the kind. -/
def Raises (kind : Error → Prop) (x : Run α) : Prop := ∀ s e s', x.Ends s (.error e) s' → kind e

theorem Raises.bind {kind : Error → Prop} {x : Run α} {f : α → Run β} (hx : x.Raises kind)
    (hf : ∀ a s t, x.Ends s (.ok a) t → (f a).Raises kind) : (x >>= f).Raises kind := by
  intro s e s' h
  rcases ends_bind_error.1 h with ⟨a, t, ha, hrest⟩ | he
  · exact hf a s t ha t e s' hrest
  · exact hx s e s' he

theorem Raises.mono {kind kind' : Error → Prop} {x : Run α} (hx : x.Raises kind) (h : ∀ e, kind e → kind' e) :
    x.Raises kind' :=
  fun s e s' he => h e (hx s e s' he)

theorem raises_pure (kind : Error → Prop) (a : α) : (pure a : Run α).Raises kind := by
  intro s e s' h
  cases (ends_pure.1 h).1

/-- From every state the second run goes like the first one, unless the first one fails in
a way of the kind. -/
def AgreesUnless (kind : Error → Prop) (x y : Run α) : Prop :=
  ∀ s, (∃ e s', x.Ends s (.error e) s' ∧ kind e) ∨ y.run.run s = x.run.run s

theorem AgreesUnless.refl (kind : Error → Prop) (x : Run α) : AgreesUnless kind x x := fun _ => .inr rfl

/-- What follows has to agree only for what the second run can give. -/
theorem AgreesUnless.bind_of_ends {kind : Error → Prop} {x y : Run α} {f g : α → Run β} (hx : AgreesUnless kind x y)
    (hf : ∀ a s t, y.Ends s (.ok a) t → AgreesUnless kind (f a) (g a)) : AgreesUnless kind (x >>= f) (y >>= g) := by
  intro s
  rcases hx s with ⟨e, s', he, hkind⟩ | heq
  · exact .inl ⟨e, s', ends_bind_error.2 (.inr he), hkind⟩
  · rw [run_bind, run_bind, heq]
    rcases hrun : x.run.run s with _ | ⟨_ | a, t⟩
    · exact .inr rfl
    · exact .inr rfl
    · rcases hf a s t (heq.trans hrun) t with ⟨e, s', he, hkind⟩ | hagree
      · exact .inl ⟨e, s', ends_bind_error.2 (.inl ⟨a, t, hrun, he⟩), hkind⟩
      · exact .inr hagree

theorem AgreesUnless.bind {kind : Error → Prop} {x y : Run α} {f g : α → Run β} (hx : AgreesUnless kind x y)
    (hf : ∀ a, AgreesUnless kind (f a) (g a)) : AgreesUnless kind (x >>= f) (y >>= g) :=
  hx.bind_of_ends fun a _ _ _ => hf a

theorem AgreesUnless.trans {kind : Error → Prop} {x y z : Run α} (hxy : AgreesUnless kind x y)
    (hyz : AgreesUnless kind y z) : AgreesUnless kind x z := by
  intro s
  rcases hxy s with hfails | hy
  · exact .inl hfails
  · rcases hyz s with ⟨e, s', he, hkind⟩ | hz
    · exact .inl ⟨e, s', hy.symm.trans he, hkind⟩
    · exact .inr (hz.trans hy)

end Run

open Run

/-! ## Levels -/

namespace Template

/-- What stands at a place where a template stands, and how many calls and lists are above
it. -/
inductive Position : Template → Path → Nat → Template → Prop
  | root {t} : Position t [] 0 t
  | head {head args p n u} : Position head p n u → Position (call head args) (.head :: p) (n + 1) u
  | argument {t i name value p n u} : t.parts[i]? = some (.arg name value) → Position value p n u →
      Position t (.arg i :: p) (n + 1) u
  | definitionValue {t i source value p n u} : t.parts[i]? = some (.define source value) → Position value p n u →
      Position t (.arg i :: p) (n + 1) u

/-- Every step of a path goes into a call or list. -/
theorem Position.leads {t u : Template} {p : Path} {n : Nat} (h : t.Position p n u) :
    t.Leads p (.template u) ∧ n = p.length := by
  induction h with
  | root => exact ⟨.here, rfl⟩
  | head _ ih => exact ⟨.head ih.1, congrArg (· + 1) ih.2⟩
  | argument hi _ ih => exact ⟨.arg hi ih.1, congrArg (· + 1) ih.2⟩
  | definitionValue hi _ ih => exact ⟨.value hi ih.1, congrArg (· + 1) ih.2⟩

end Template

/-! ## The limit -/

section
variable {ev : Evaluator} {env : FrameId} {options : ExpandOptions}

theorem le_of_ends_checkDepth {path : Path} {depth : Nat} {s s' : State}
    (h : (Expand.checkDepth options path depth).Ends s (.ok ()) s') : depth ≤ options.maxDepth := by
  obtain ⟨hok, _⟩ := Expand.ends_checkDepth.1 h
  split at hok
  · cases hok
  · omega

theorem checkDepth_of_le {path : Path} {depth : Nat} (h : depth ≤ options.maxDepth) :
    Expand.checkDepth options path depth = pure () :=
  if_neg (Nat.not_lt.2 h)

/-- What is expanded is not below the limit. -/
theorem le_maxDepth_of_ends_node {path : Path} {depth : Nat} {t : Template} {n : Node} {s s' : State}
    (h : (Expand.node ev env options path depth t).Ends s (.ok n) s') : depth ≤ options.maxDepth := by
  have hcheck : ∃ rest : Run Node, Expand.node ev env options path depth t =
      (do Expand.checkDepth options path depth; rest) := by
    cases t <;> exact ⟨_, by rw [Expand.node]⟩
  obtain ⟨rest, hrest⟩ := hcheck
  rw [hrest] at h
  obtain ⟨_, u, hok, _⟩ := ends_bind_ok.1 h
  exact le_of_ends_checkDepth hok

/-- A head with holes has to be one that can be called, once it is expanded. -/
def checkExpanded (head : Template) (path : Path) (h : Node) : Run Unit :=
  if head.isPlain then pure () else Run.ofExcept (h.requireHead path)

theorem node_call (path : Path) (depth : Nat) (head : Template) (args : List (Part Template)) :
    Expand.node ev env options path depth (.call head args) = (do
      Expand.checkDepth options path depth
      let h ← Expand.node ev env options (path ++ [.head]) (depth + 1) head
      checkExpanded head (path ++ [.head]) h
      let as ← Expand.argList ev env options path (depth + 1) 0 args
      return .call h as) := by
  rw [Expand.node]
  unfold checkExpanded
  cases head.isPlain <;> simp

/-- Every place of a template is expanded, if the template is. -/
theorem le_maxDepth_of_position {t u : Template} {p : Path} {k : Nat} (hp : t.Position p k u) {n : Node}
    {s s' : State} (h : (expand ev env options t).Ends s (.ok n) s') : k ≤ options.maxDepth := by
  obtain ⟨hleads, rfl⟩ := hp.leads
  have hrun : (Visit.runAll ev env options (t.visits [] 0 false)).Ends s (.ok ()) s' := by
    rw [← expand_eq_runAll]
    exact ends_bind_ok.2 ⟨n, s', h, ends_pure.2 ⟨rfl, rfl⟩⟩
  obtain ⟨atHead, hi⟩ := visits_infix_of_leads hleads [] 0 false
  rw [List.nil_append, Nat.zero_add] at hi
  obtain ⟨_, s₁, s₂, _, _, hplace⟩ := runAll_infix hi hrun
  obtain ⟨m, hm⟩ := expands_of_runAll hplace
  exact le_maxDepth_of_ends_node hm

variable (options) in
/-- If the failure is that of the limit, it is at a place of the template one level below
the limit. The template itself is at the path, and its level is the depth. -/
def Exceeds (t : Template) (path : Path) (depth : Nat) (e : Error) : Prop :=
  e.cause = .recursionLimit →
    ∃ p k u, e.path = path ++ p ∧ t.Position p k u ∧ depth + k = options.maxDepth + 1

/-- What a template has a step further down is in the template. -/
theorem Exceeds.up {t value : Template} {path : Path} {x : Step} {depth : Nat} {e : Error}
    (h : Exceeds options value (path ++ [x]) (depth + 1) e)
    (hx : ∀ p k u, value.Position p k u → t.Position (x :: p) (k + 1) u) : Exceeds options t path depth e := by
  intro hcause
  obtain ⟨p, k, u, hpath, hp, hk⟩ := h hcause
  exact ⟨x :: p, k + 1, u, by rw [hpath, List.append_assoc, List.singleton_append], hx p k u hp, by omega⟩

theorem exceeds_of_cause_ne {t : Template} {path : Path} {depth : Nat} {e : Error} (h : e.cause ≠ .recursionLimit) :
    Exceeds options t path depth e :=
  fun hcause => absurd hcause h

/-! Failures of holes are never those of the limit. -/

theorem raises_unquote (source : Node) (path : Path) :
    (Expand.unquote ev env source path).Raises (·.cause ≠ .recursionLimit) := by
  intro s e s' h
  rcases Expand.ends_unquote.1 h with ⟨v, _, hbad⟩ | ⟨e', _, hbad⟩
  · cases hn : v.toNode? <;> rw [hn] at hbad <;> cases hbad
    exact nofun
  · cases hbad
    exact nofun

theorem raises_splice (source : Node) (path : Path) :
    (Expand.splice ev env options source path).Raises (·.cause ≠ .recursionLimit) := by
  intro s e s' h
  rcases Expand.ends_splice.1 h with ⟨v, u, _, hargs⟩ | ⟨e', _, hbad⟩
  · obtain ⟨_, ⟨_, hbad, _⟩ | ⟨_, _, _, _, _, hbad⟩ | ⟨_, hbad⟩⟩ := Expand.ends_splicedArgs hargs <;> cases hbad <;>
      exact nofun
  · cases hbad
    exact nofun

theorem raises_definitionName (source : Node) (path : Path) :
    (Expand.definitionName ev env source path).Raises (·.cause ≠ .recursionLimit) := by
  intro s e s' h
  rcases Expand.ends_definitionName.1 h with ⟨v, _, hbad⟩ | ⟨e', _, hbad⟩
  · cases hname : Expand.nameOf v <;> rw [hname] at hbad <;> cases hbad
    exact nofun
  · cases hbad
    exact nofun

theorem raises_checkExpanded (head : Template) (path : Path) (n : Node) :
    (checkExpanded head path n).Raises (·.cause ≠ .recursionLimit) := by
  unfold checkExpanded
  split
  · exact raises_pure _ ()
  · intro s e s' h
    obtain ⟨hbad, _⟩ := ends_ofExcept.1 h
    unfold Node.requireHead at hbad
    split at hbad <;> cases hbad
    exact nofun

/-- The check fails at the place itself. Above it all levels are allowed. -/
theorem raises_checkDepth {t : Template} {path : Path} {depth : Nat} (hdepth : depth ≤ options.maxDepth + 1) :
    (Expand.checkDepth options path depth).Raises (Exceeds options t path depth) := by
  intro s e s' h _
  obtain ⟨he, _⟩ := Expand.ends_checkDepth.1 h
  split at he
  · cases he
    exact ⟨[], 0, t, (List.append_nil path).symm, .root, by omega⟩
  · cases he

mutual
theorem raises_node (path : Path) (depth : Nat) : ∀ t : Template, depth ≤ options.maxDepth + 1 →
    (Expand.node ev env options path depth t).Raises (Exceeds options t path depth)
  | .node n, hdepth => by
    rw [Expand.node]
    exact (raises_checkDepth hdepth).bind fun _ _ _ _ => raises_pure _ n
  | .single source, hdepth => by
    rw [Expand.node]
    exact (raises_checkDepth hdepth).bind fun _ _ _ _ =>
      (raises_unquote source path).mono fun _ => exceeds_of_cause_ne
  | .call head args, hdepth => by
    rw [node_call]
    refine (raises_checkDepth hdepth).bind fun _ s s' hcheck => ?_
    have hle : depth ≤ options.maxDepth := le_of_ends_checkDepth hcheck
    have hhead := raises_node (path ++ [.head]) (depth + 1) head (by omega)
    have hargs := raises_argList path depth 0 (.call head args) hle args rfl
    refine (hhead.mono fun _ he => he.up fun _ _ _ => .head).bind fun h _ _ _ => ?_
    refine ((raises_checkExpanded head _ h).mono fun _ => exceeds_of_cause_ne).bind fun _ _ _ _ => ?_
    exact hargs.bind fun as _ _ _ => raises_pure _ (Node.call h as)
  | .pairlist args, hdepth => by
    rw [Expand.node]
    refine (raises_checkDepth hdepth).bind fun _ s s' hcheck => ?_
    have hle : depth ≤ options.maxDepth := le_of_ends_checkDepth hcheck
    have hargs := raises_argList path depth 0 (.pairlist args) hle args rfl
    exact hargs.bind fun as _ _ _ => raises_pure _ (Node.pairlist as)

theorem raises_argList (path : Path) (depth i : Nat) (t : Template) (hle : depth ≤ options.maxDepth) :
    ∀ parts : List (Part Template), t.parts.drop i = parts →
      (Expand.argList ev env options path (depth + 1) i parts).Raises (Exceeds options t path depth)
  | [], _ => by
    rw [Expand.argList]
    exact raises_pure _ []
  | .arg name value :: rest, hi => by
    obtain ⟨hpart, hrest⟩ := Template.parts_of_drop hi
    rw [Expand.argList]
    have hvalue := raises_node (path ++ [.arg i]) (depth + 1) value (by omega)
    refine (hvalue.mono fun _ he => he.up fun _ _ _ => .argument hpart).bind fun n _ _ _ => ?_
    exact (raises_argList path depth (i + 1) t hle rest hrest).bind fun as _ _ _ => raises_pure _ _
  | .splice source :: rest, hi => by
    obtain ⟨_, hrest⟩ := Template.parts_of_drop hi
    rw [Expand.argList]
    refine ((raises_splice source _).mono fun _ => exceeds_of_cause_ne).bind fun as _ _ _ => ?_
    exact (raises_argList path depth (i + 1) t hle rest hrest).bind fun bs _ _ _ => raises_pure _ _
  | .define nameSource value :: rest, hi => by
    obtain ⟨hpart, hrest⟩ := Template.parts_of_drop hi
    rw [Expand.argList]
    refine ((raises_definitionName nameSource _).mono fun _ => exceeds_of_cause_ne).bind fun name _ _ _ => ?_
    have hvalue := raises_node (path ++ [.arg i]) (depth + 1) value (by omega)
    refine (hvalue.mono fun _ he => he.up fun _ _ _ => .definitionValue hpart).bind fun n _ _ _ => ?_
    exact (raises_argList path depth (i + 1) t hle rest hrest).bind fun as _ _ _ => raises_pure _ _
end

end

/-! ## Other options -/

/-- The second options allow all that the first ones do. What they do otherwise, the first
ones refuse by a failure of the kind. -/
structure ExpandOptions.Loosens (kind : Error → Prop) (options options' : ExpandOptions) : Prop where
  checkDepth : ∀ path depth,
    AgreesUnless kind (Expand.checkDepth options path depth) (Expand.checkDepth options' path depth)
  splicedArgs : ∀ path v,
    AgreesUnless kind (Expand.splicedArgs options path v) (Expand.splicedArgs options' path v)

section
variable {options : ExpandOptions}

theorem loosens_maxDepth {d : Nat} (hd : options.maxDepth ≤ d) :
    options.Loosens (·.cause = .recursionLimit) { options with maxDepth := d } := by
  refine ⟨fun path depth s => ?_, fun path v => .refl _ _⟩
  by_cases h : options.maxDepth < depth
  · exact .inl ⟨_, s, Expand.ends_checkDepth.2 ⟨(if_pos h).symm, rfl⟩, rfl⟩
  · have h' : ¬ d < depth := by omega
    simp only [Expand.checkDepth, h, h', ↓reduceIte, or_true]

theorem loosens_spliceNull (options : ExpandOptions) :
    options.Loosens (·.cause = .splice (.value .null)) { options with spliceNull := true } := by
  refine ⟨fun path depth => .refl _ _, fun path v s => ?_⟩
  unfold Expand.splicedArgs
  split
  · cases hnull : options.spliceNull with
    | true => exact .inr rfl
    | false => exact .inl ⟨_, s, ends_failAt.2 ⟨rfl, rfl⟩, rfl⟩
  · exact .inr rfl
  · exact .inr rfl
  · exact .inr rfl

end

section
variable {ev : Evaluator} {env : FrameId} {options options' : ExpandOptions} {kind : Error → Prop}
  (hloosens : options.Loosens kind options')
include hloosens

mutual
theorem agrees_node (path : Path) (depth : Nat) : ∀ t : Template,
    AgreesUnless kind (Expand.node ev env options path depth t) (Expand.node ev env options' path depth t)
  | .node n => by
    rw [Expand.node, Expand.node]
    exact (hloosens.checkDepth path depth).bind fun _ => .refl _ _
  | .single source => by
    rw [Expand.node, Expand.node]
    exact (hloosens.checkDepth path depth).bind fun _ => .refl _ _
  | .call head args => by
    rw [node_call, node_call]
    refine (hloosens.checkDepth path depth).bind fun _ => (agrees_node _ _ head).bind fun h => ?_
    exact (AgreesUnless.refl _ _).bind fun _ => (agrees_argList _ _ _ args).bind fun as => .refl _ _
  | .pairlist args => by
    rw [Expand.node, Expand.node]
    exact (hloosens.checkDepth path depth).bind fun _ => (agrees_argList _ _ _ args).bind fun as => .refl _ _

theorem agrees_argList (path : Path) (depth i : Nat) : ∀ parts : List (Part Template),
    AgreesUnless kind (Expand.argList ev env options path depth i parts)
      (Expand.argList ev env options' path depth i parts)
  | [] => by
    rw [Expand.argList, Expand.argList]
    exact .refl _ _
  | .arg name value :: rest => by
    rw [Expand.argList, Expand.argList]
    exact (agrees_node _ _ value).bind fun n => (agrees_argList _ _ _ rest).bind fun as => .refl _ _
  | .splice source :: rest => by
    rw [Expand.argList, Expand.argList]
    refine AgreesUnless.bind ?_ fun as => (agrees_argList _ _ _ rest).bind fun bs => .refl _ _
    unfold Expand.splice
    exact (AgreesUnless.refl _ _).bind fun _ => (AgreesUnless.refl _ _).bind fun v => hloosens.splicedArgs _ v
  | .define nameSource value :: rest => by
    rw [Expand.argList, Expand.argList]
    refine (AgreesUnless.refl _ _).bind fun name => (agrees_node _ _ value).bind fun n => ?_
    exact (agrees_argList _ _ _ rest).bind fun as => .refl _ _
end

end

/-- The options of an expansion only forbid. A template with a place below more calls and
lists than allowed is never expanded; the failure is then one level below the limit, with
as many steps in its path. Unless the expansion fails so, a higher limit changes neither
its outcome nor the state. If it succeeds without splices of `NULL`, allowing them changes
nothing either. -/
theorem options_only_restrict (ev : Evaluator) (env : FrameId) (options : ExpandOptions) (t : Template) (s : State) :
    (∀ p k u, t.Position p k u → options.maxDepth < k → ∀ n s', ¬ (expand ev env options t).Ends s (.ok n) s') ∧
    (∀ e s', (expand ev env options t).Ends s (.error e) s' → e.cause = .recursionLimit →
      (∃ u, t.Position e.path (options.maxDepth + 1) u) ∧ e.path.length = options.maxDepth + 1) ∧
    ((∀ e s', (expand ev env options t).Ends s (.error e) s' → e.cause ≠ .recursionLimit) →
      ∀ d, options.maxDepth ≤ d →
        (expand ev env { options with maxDepth := d } t).run.run s = (expand ev env options t).run.run s) ∧
    (∀ n s', (expand ev env { options with spliceNull := false } t).Ends s (.ok n) s' →
      (expand ev env { options with spliceNull := true } t).Ends s (.ok n) s') := by
  refine ⟨fun p k u hp hk n s' h => ?_, fun e s' h hcause => ?_, fun hlimit d hd => ?_, fun n s' h => ?_⟩
  · exact absurd (le_maxDepth_of_position hp h) (by omega)
  · obtain ⟨p, k, u, hpath, hp, hk⟩ := raises_node [] 0 t (Nat.zero_le _) s e s' h hcause
    rw [List.nil_append] at hpath
    rw [Nat.zero_add] at hk
    subst hk
    exact ⟨⟨u, hpath ▸ hp⟩, by rw [hpath, ← hp.leads.2]⟩
  · rcases agrees_node (loosens_maxDepth hd) [] 0 t s with ⟨e, s', he, hcause⟩ | hagree
    · exact absurd hcause (hlimit e s' he)
    · exact hagree
  · rcases agrees_node (loosens_spliceNull { options with spliceNull := false }) [] 0 t s with ⟨e, s', he, _⟩ | hagree
    · cases (h.unique he).1
    · exact hagree.trans h

/-- In `f(g(!!1))` the head `g` is the first place below two calls. -/
theorem options_only_restrict_nested : ∃ t s u s' n,
    t.Position [.arg 0, .head] 2 u ∧
      (∀ n s', ¬ (expand (eval 2) 0 { maxDepth := 1 } t).Ends s (.ok n) s') ∧
      (∀ d, 2 ≤ d → (expand (eval 2) 0 { maxDepth := d, spliceNull := false } t).Ends s (.ok n) s') ∧
      (expand (eval 2) 0 { maxDepth := 2, spliceNull := true } t).Ends s (.ok n) s' := by
  let one : Node := .const (.number (.int 1))
  let t : Template := .call (.node (.symbol "f")) [.unnamed (.call (.node (.symbol "g")) [.unnamed (.single one)])]
  let s := State.ofBindings []
  let s' := s.logging (.unquoting one [.arg 0, .arg 0])
  let n : Node := .call (.symbol "f") [.unnamed (.call (.symbol "g") [.unnamed one])]
  have hlow : (expand (eval 2) 0 { maxDepth := 1 } t).Ends s (.error (.atPath .recursionLimit [.arg 0, .head])) s := rfl
  have hok : (expand (eval 2) 0 { maxDepth := 2, spliceNull := false } t).Ends s (.ok n) s' := rfl
  obtain ⟨hnever, hat, _, _⟩ := options_only_restrict (eval 2) 0 { maxDepth := 1 } t s
  obtain ⟨_, _, hsame, hnull⟩ := options_only_restrict (eval 2) 0 { maxDepth := 2, spliceNull := false } t s
  obtain ⟨u, hu⟩ := (hat _ _ hlow rfl).1
  refine ⟨t, s, u, s', n, hu, hnever _ _ _ hu (Nat.lt_succ_self 1), fun d hd => ?_, hnull _ _ hok⟩
  refine (hsame (fun e s' he => ?_) d hd).trans hok
  cases (hok.unique he).1

end Quotation
