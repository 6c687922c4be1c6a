import Quotation.Proofs.Template.Limit
/-!
# Collapsing

A call or list that is put together from parts without holes is kept as a plain node. What is
inside a plain node is no longer looked at, so its levels are not counted and its head is not
checked. Apart from the limit that makes no difference: a call expands alike whether it was put
together or not (`agrees_checkedCall`), and so does a template that is put together anew from the
inside out (`agrees_rebuild`).
-/

namespace Quotation

namespace Template

mutual
/-- The template with all its calls and lists put together anew, from the inside out. -/
def rebuild : Template → Except Error Template
  | node n => .ok (node n)
  | single source => .ok (single source)
  | call head args => do
    let head ← rebuild head
    let args ← rebuildParts args
    checkedCall head args
  | pairlist args => do
    let args ← rebuildParts args
    return ofArgs args

def rebuildParts : List (Part Template) → Except Error (List (Part Template))
  | [] => .ok []
  | .arg name value :: rest => do
    let value ← rebuild value
    return .arg name value :: (← rebuildParts rest)
  | .splice source :: rest => return .splice source :: (← rebuildParts rest)
  | .define nameSource value :: rest => do
    let value ← rebuild value
    return .define nameSource value :: (← rebuildParts rest)
end

/-- What is put together with a check has a head that can be called, if the head is plain. -/
theorem checkedCall_eq_ok_iff {head t : Template} {args : List (Part Template)} : checkedCall head args = .ok t ↔
    (∀ n, head = node n → n.isHead = true) ∧ apply head args = t := by
  cases head with
  | node n =>
    rw [checkedCall, bind_eq_ok_iff]
    constructor
    · rintro ⟨_, hn, ht⟩
      refine ⟨?_, Except.ok.inj ht⟩
      rintro _ ⟨⟩
      exact Node.requireHead_eq_ok_iff.1 hn
    · rintro ⟨hn, rfl⟩
      exact ⟨(), Node.requireHead_eq_ok_iff.2 (hn n rfl), rfl⟩
  | single _ | call _ _ | pairlist _ => simp [checkedCall]

end Template

open Run

variable {ev : Evaluator} {env : FrameId} {options : ExpandOptions}

/-! ## What is plain is its own expansion -/

theorem agrees_checkDepth (path : Path) (depth : Nat) :
    AgreesUnless (·.cause = .recursionLimit) (Expand.checkDepth options path depth) (pure ()) := by
  intro s
  by_cases h : options.maxDepth < depth
  · exact .inl ⟨_, s, Expand.ends_checkDepth.2 ⟨(if_pos h).symm, rfl⟩, rfl⟩
  · rw [checkDepth_of_le (Nat.not_lt.1 h)]
    exact .inr rfl

theorem agrees_node_plain (path : Path) (depth : Nat) (n : Node) :
    AgreesUnless (·.cause = .recursionLimit) (Expand.node ev env options path depth (.node n)) (pure n) := by
  rw [Expand.node]
  exact (agrees_checkDepth path depth).bind fun _ => .refl _ _

theorem agrees_argList_plain {parts : List (Part Template)} {as : List (Arg Node)}
    (h : Template.plainArgs? parts = some as) (path : Path) (depth i : Nat) :
    AgreesUnless (·.cause = .recursionLimit) (Expand.argList ev env options path depth i parts) (pure as) := by
  induction parts generalizing as i with
  | nil =>
    cases h
    rw [Expand.argList]
    exact .refl _ _
  | cons p ps ih =>
    obtain ⟨name, n, bs, rfl, hbs, rfl⟩ := Template.plainArgs?_cons_eq_some h
    rw [Expand.argList]
    exact (agrees_node_plain _ _ n).bind fun _ => (ih hbs (i + 1)).bind fun _ => .refl _ _

/-! ## Putting one call or list together -/

theorem agrees_apply (path : Path) (depth : Nat) (head : Template) (args : List (Part Template)) :
    AgreesUnless (·.cause = .recursionLimit) (Expand.node ev env options path depth (.call head args))
      (Expand.node ev env options path depth (.apply head args)) := by
  rcases Template.apply_eq head args with happly | ⟨h, as, rfl, has, happly⟩
  · rw [happly]
    exact .refl _ _
  · have hnode : Expand.node ev env options path depth (.node (.call h as)) =
        (do Expand.checkDepth options path depth; return .call h as) := by rw [Expand.node]
    rw [happly, node_call, hnode]
    exact (AgreesUnless.refl _ _).bind fun _ => (agrees_node_plain _ _ h).bind fun _ =>
      (agrees_argList_plain has path (depth + 1) 0).bind fun _ => .refl _ _

theorem agrees_ofArgs (path : Path) (depth : Nat) (args : List (Part Template)) :
    AgreesUnless (·.cause = .recursionLimit) (Expand.node ev env options path depth (.pairlist args))
      (Expand.node ev env options path depth (.ofArgs args)) := by
  rcases Template.ofArgs_eq args with hofArgs | ⟨as, has, hofArgs⟩
  · rw [hofArgs]
    exact .refl _ _
  · rw [hofArgs, Expand.node, Expand.node]
    exact (AgreesUnless.refl _ _).bind fun _ => (agrees_argList_plain has path (depth + 1) 0).bind fun _ => .refl _ _

/-! ## Putting everything together anew -/

theorem rebuild_of_isPlain {head head' : Template} (h : head.rebuild = .ok head') (hplain : head.isPlain = true) :
    head' = head := by
  cases head with
  | node n =>
    rw [Template.rebuild] at h
    exact (Except.ok.inj h).symm
  | single _ | call _ _ | pairlist _ => cases hplain

/-- A head that has been put together anew passes the check just if it does so before: what is
plain only now can be called. -/
theorem checkExpanded_rebuild {head head' : Template} (h : head.rebuild = .ok head')
    (hhead : ∀ n, head' = .node n → n.isHead = true) {path : Path} {depth : Nat} {n : Node} {s t : State}
    (hn : (Expand.node ev env options path depth head').Ends s (.ok n) t) :
    checkExpanded head path n = checkExpanded head' path n := by
  unfold checkExpanded
  cases hplain : head.isPlain with
  | true => rw [rebuild_of_isPlain h hplain, hplain]
  | false =>
    cases head' with
    | node m =>
      obtain ⟨_, rfl, _⟩ := Expand.ends_node_ok.1 hn
      rw [Node.requireHead_eq_ok_iff.2 (hhead n rfl)]
      rfl
    | single _ | call _ _ | pairlist _ => rfl

mutual
theorem agrees_rebuild (path : Path) (depth : Nat) : ∀ t t' : Template, t.rebuild = .ok t' →
    AgreesUnless (·.cause = .recursionLimit) (Expand.node ev env options path depth t)
      (Expand.node ev env options path depth t')
  | .node n, t', ht => by
    rw [Template.rebuild] at ht
    cases ht
    exact .refl _ _
  | .single source, t', ht => by
    rw [Template.rebuild] at ht
    cases ht
    exact .refl _ _
  | .call head args, t', ht => by
    rw [Template.rebuild] at ht
    obtain ⟨head', hhead, ht⟩ := bind_eq_ok_iff.1 ht
    obtain ⟨args', hargs, ht⟩ := bind_eq_ok_iff.1 ht
    obtain ⟨hplain, rfl⟩ := Template.checkedCall_eq_ok_iff.1 ht
    refine AgreesUnless.trans ?_ (agrees_apply path depth head' args')
    rw [node_call, node_call]
    refine (AgreesUnless.refl _ _).bind fun _ => ?_
    -- The checks of the two heads differ, but not for what the new head expands to.
    refine (agrees_rebuild (path ++ [.head]) (depth + 1) head head' hhead).bind_of_ends fun n s u hn => ?_
    rw [checkExpanded_rebuild hhead hplain hn]
    exact (AgreesUnless.refl _ _).bind fun _ =>
      (agrees_rebuildParts path (depth + 1) 0 args args' hargs).bind fun _ => .refl _ _
  | .pairlist args, t', ht => by
    rw [Template.rebuild] at ht
    obtain ⟨args', hargs, ht⟩ := bind_eq_ok_iff.1 ht
    cases ht
    refine AgreesUnless.trans ?_ (agrees_ofArgs path depth args')
    rw [Expand.node, Expand.node]
    exact (AgreesUnless.refl _ _).bind fun _ =>
      (agrees_rebuildParts path (depth + 1) 0 args args' hargs).bind fun _ => .refl _ _

theorem agrees_rebuildParts (path : Path) (depth i : Nat) : ∀ parts parts' : List (Part Template),
    Template.rebuildParts parts = .ok parts' →
    AgreesUnless (·.cause = .recursionLimit) (Expand.argList ev env options path depth i parts)
      (Expand.argList ev env options path depth i parts')
  | [], parts', h => by
    rw [Template.rebuildParts] at h
    cases h
    exact .refl _ _
  | .arg name value :: rest, parts', h => by
    rw [Template.rebuildParts] at h
    obtain ⟨value', hvalue, h⟩ := bind_eq_ok_iff.1 h
    obtain ⟨rest', hrest, h⟩ := bind_eq_ok_iff.1 h
    cases h
    rw [Expand.argList, Expand.argList]
    exact (agrees_rebuild _ depth value value' hvalue).bind fun n =>
      (agrees_rebuildParts path depth (i + 1) rest rest' hrest).bind fun _ => .refl _ _
  | .splice source :: rest, parts', h => by
    rw [Template.rebuildParts] at h
    obtain ⟨rest', hrest, h⟩ := bind_eq_ok_iff.1 h
    cases h
    rw [Expand.argList, Expand.argList]
    exact (AgreesUnless.refl _ _).bind fun _ =>
      (agrees_rebuildParts path depth (i + 1) rest rest' hrest).bind fun _ => .refl _ _
  | .define nameSource value :: rest, parts', h => by
    rw [Template.rebuildParts] at h
    obtain ⟨value', hvalue, h⟩ := bind_eq_ok_iff.1 h
    obtain ⟨rest', hrest, h⟩ := bind_eq_ok_iff.1 h
    cases h
    rw [Expand.argList, Expand.argList]
    exact (AgreesUnless.refl _ _).bind fun _ => (agrees_rebuild _ depth value value' hvalue).bind fun n =>
      (agrees_rebuildParts path depth (i + 1) rest rest' hrest).bind fun _ => .refl _ _
end

/-! ## Expansion -/

/-- Collapsing changes nothing but what the limit refuses. From every state a call that is put
together with a check on its head expands like the call of the same head and arguments, and a list
like the list of the same entries: the outcome is the same, a node or a failure, and so is the
state. So does a template in which all calls and lists are put together anew, from the inside out,
if all checks are passed. The exception is that the template which has not been collapsed goes
below the limit. -/
theorem collapsing_lifts_only_limit (ev : Evaluator) (env : FrameId) (options : ExpandOptions) :
    (∀ head args t, Template.checkedCall head args = .ok t →
      AgreesUnless (·.cause = .recursionLimit) (expand ev env options (.call head args)) (expand ev env options t)) ∧
    (∀ args, AgreesUnless (·.cause = .recursionLimit) (expand ev env options (.pairlist args))
      (expand ev env options (.ofArgs args))) ∧
    ∀ t t' : Template, t.rebuild = .ok t' →
      AgreesUnless (·.cause = .recursionLimit) (expand ev env options t) (expand ev env options t') := by
  refine ⟨fun head args t ht => ?_, fun args => agrees_ofArgs [] 0 args, fun t t' ht => agrees_rebuild [] 0 t t' ht⟩
  obtain ⟨_, rfl⟩ := Template.checkedCall_eq_ok_iff.1 ht
  exact agrees_apply [] 0 head args

/-- In `f(1)(!!x, c(1))` the head and the second argument collapse, which saves a level. -/
theorem collapsing_lifts_only_limit_head :
    let one : Node := .const (.number (.int 1))
    let c : Node := .call (.symbol "c") [.unnamed one]
    let rawc : Template := .call (.node (.symbol "c")) [.unnamed (.node one)]
    let t : Template := .call (.call (.node (.symbol "f")) [.unnamed (.node one)])
      [.unnamed (.single (.symbol "x")), .unnamed rawc]
    let t' : Template := .call (.node (.call (.symbol "f") [.unnamed one]))
      [.unnamed (.single (.symbol "x")), .unnamed (.node c)]
    let n : Node := .call (.call (.symbol "f") [.unnamed one]) [.unnamed (.symbol "y"), .unnamed c]
    Template.checkedCall (.node (.symbol "c")) [.unnamed (.node one)] = .ok (.node c) ∧ t.rebuild = .ok t' ∧
      ∃ s s', (expand (eval 2) 0 { maxDepth := 2 } (.node c)).Ends s (.ok c) s ∧
        (expand (eval 2) 0 { maxDepth := 2 } t).Ends s (.ok n) s' ∧
        (expand (eval 2) 0 { maxDepth := 2 } t').Ends s (.ok n) s' ∧
        (expand (eval 2) 0 { maxDepth := 1 } t).Ends s (.error (.atPath .recursionLimit [.head, .head])) s ∧
        (expand (eval 2) 0 { maxDepth := 1 } t').Ends s (.ok n) s' := by
  intro one c rawc t t' n
  let s := State.ofBindings [("x", .value (.lang (.symbol "y")))]
  let s' := s.logging (.unquoting (.symbol "x") [.arg 0])
  have hc : Template.checkedCall (.node (.symbol "c")) [.unnamed (.node one)] = .ok (.node c) := rfl
  have ht : t.rebuild = .ok t' := rfl
  have hrawc : (expand (eval 2) 0 { maxDepth := 2 } rawc).Ends s (.ok c) s := rfl
  have hraw : (expand (eval 2) 0 { maxDepth := 2 } t).Ends s (.ok n) s' := rfl
  obtain ⟨hcall, _, hrebuild⟩ := collapsing_lifts_only_limit (eval 2) 0 { maxDepth := 2 }
  refine ⟨hc, ht, s, s', ?_, hraw, ?_, rfl, rfl⟩
  · rcases hcall _ _ _ hc s with ⟨e, u, he, _⟩ | hsame
    · cases (hrawc.unique he).1
    · exact hsame.trans hrawc
  · rcases hrebuild t t' ht s with ⟨e, u, he, _⟩ | hsame
    · cases (hraw.unique he).1
    · exact hsame.trans hraw

end Quotation
