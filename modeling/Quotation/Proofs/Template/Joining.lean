import Quotation.Proofs.Eval.Logging
import Quotation.Proofs.Template.Limit
import Quotation.Template.Call
/-!
# Argument lists put together

The entries of an argument list are expanded one after the other, and where a list stands shows
only in the places that are reported. Behind more entries a list expands alike, with its own
entries counted on (`alike_argList`), so two lists that are joined expand as the first one and then
the second one (`argList_append`). A level further down everything expands as it does under a limit
that is lower by one (`node_deeper`). Calls and lists therefore expand to what their arguments give
by themselves.
-/

namespace Quotation

/-! ## Places behind more entries -/

/-- The step, with so many more entries in front of the list it goes into. -/
def Step.moved (n : Nat) : Step → Step
  | .head => .head
  | .arg i => .arg (n + i)
  | .name i => .name (n + i)

/-- The place, with so many more entries in front of the list at the root. -/
def Path.moved (n : Nat) : Path → Path
  | [] => []
  | step :: path => step.moved n :: path

/-- The failure, with its place moved. The cause and the reasons are the same. -/
def Error.moved (n : Nat) (e : Error) : Error := ⟨⟨e.fault.cause, e.fault.path.moved n⟩, e.reasons⟩

/-- The second event is the first one, or what a marker at its place reports there once the place is
moved. -/
inductive Event.Moved (n : Nat) : Event → Event → Prop
  | same (e : Event) : Moved n e e
  | unquoting (source : Node) (path : Path) : Moved n (.unquoting source path) (.unquoting source (path.moved n))
  | splicing (source : Node) (path : Path) : Moved n (.splicing source path) (.splicing source (path.moved n))

theorem Path.moved_append {path : Path} (h : path ≠ []) (n : Nat) (rest : Path) :
    Path.moved n (path ++ rest) = path.moved n ++ rest := by
  cases path with
  | nil => exact absurd rfl h
  | cons step path => rfl

/-- The steps from one place to the entries of a list, starting with an index, are moved to those from
the other place. -/
structure MovesTo (n : Nat) (path : Path) (i : Nat) (path' : Path) (i' : Nat) : Prop where
  arg (k : Nat) : Path.moved n (path ++ [.arg (i + k)]) = path' ++ [.arg (i' + k)]
  name (k : Nat) : Path.moved n (path ++ [.name (i + k)]) = path' ++ [.name (i' + k)]

theorem movesTo_of_ne_nil {path : Path} (h : path ≠ []) (n i : Nat) : MovesTo n path i (path.moved n) i :=
  ⟨fun _ => Path.moved_append h n _, fun _ => Path.moved_append h n _⟩

theorem movesTo_root (n i : Nat) : MovesTo n [] i [] (n + i) :=
  ⟨fun k => by rw [Nat.add_assoc]; rfl, fun k => by rw [Nat.add_assoc]; rfl⟩

theorem MovesTo.arg_first {n i i' : Nat} {path path' : Path} (h : MovesTo n path i path' i') :
    Path.moved n (path ++ [.arg i]) = path' ++ [.arg i'] := h.arg 0

theorem MovesTo.name_first {n i i' : Nat} {path path' : Path} (h : MovesTo n path i path' i') :
    Path.moved n (path ++ [.name i]) = path' ++ [.name i'] := h.name 0

theorem MovesTo.next {n i i' : Nat} {path path' : Path} (h : MovesTo n path i path' i') :
    MovesTo n path (i + 1) path' (i' + 1) :=
  ⟨fun k => by simpa only [Nat.add_assoc] using h.arg (1 + k),
    fun k => by simpa only [Nat.add_assoc] using h.name (1 + k)⟩

open Run

section
variable {ev : Evaluator} {env : FrameId} {options : ExpandOptions} {n : Nat}
  {R : Event → Event → Prop} {E : Error → Error → Prop}

section
variable (hR : ∀ e e', Event.Moved n e e' → R e e') (hE : ∀ e, E e (Error.moved n e))
  (hev : ∀ x env, Alike R Eq Eq (ev x env) (ev x env))

include hE

theorem alike_failAt {α β : Type} {A : α → β → Prop} (c : Cause) (path : Path) :
    Alike R E A (Run.failAt c path) (Run.failAt c (path.moved n)) :=
  alike_throw (hE (.atPath c path))

theorem alike_checkDepth (path : Path) (depth : Nat) :
    Alike R E Eq (Expand.checkDepth options path depth) (Expand.checkDepth options (path.moved n) depth) := by
  unfold Expand.checkDepth
  split
  · exact alike_failAt hE _ path
  · exact alike_pure rfl

theorem alike_checkExpanded (head : Template) (path : Path) (h : Node) :
    Alike R E Eq (checkExpanded head path h) (checkExpanded head (path.moved n) h) := by
  unfold checkExpanded Node.requireHead
  split
  · exact alike_pure rfl
  · split
    · exact alike_pure rfl
    · exact alike_failAt hE _ path

theorem alike_spliceEntries {path : Path} (hpath : path ≠ []) (entries : List (Arg Value)) (j : Nat) :
    Alike R E Eq (Expand.spliceEntries path j entries) (Expand.spliceEntries (path.moved n) j entries) := by
  induction entries generalizing j with
  | nil => exact alike_pure rfl
  | cons e es ih =>
    unfold Expand.spliceEntries
    split
    · exact (ih (j + 1)).bind_same fun _ => alike_pure rfl
    · rw [← Path.moved_append hpath]
      exact alike_failAt hE _ _

theorem alike_splicedArgs {path : Path} (hpath : path ≠ []) (v : Value) :
    Alike R E Eq (Expand.splicedArgs options path v) (Expand.splicedArgs options (path.moved n) v) := by
  unfold Expand.splicedArgs
  split
  · split
    · exact alike_pure rfl
    · exact alike_failAt hE _ path
  · exact alike_spliceEntries hE hpath _ 0
  · exact alike_pure rfl
  · exact alike_failAt hE _ path

include hev

theorem alike_source (source : Node) (c : Cause) (path : Path) :
    Alike R E Eq ((ev source env).explain c path) ((ev source env).explain c (path.moved n)) :=
  (hev source env).explain fun e => hE (.causedBy c path e)

theorem alike_definitionName (source : Node) (path : Path) :
    Alike R E Eq (Expand.definitionName ev env source path) (Expand.definitionName ev env source (path.moved n)) := by
  refine (alike_source hE hev source _ path).bind_same fun v => ?_
  split
  · exact alike_pure rfl
  · exact alike_failAt hE _ path

include hR

theorem alike_unquote (source : Node) (path : Path) :
    Alike R E Eq (Expand.unquote ev env source path) (Expand.unquote ev env source (path.moved n)) := by
  refine (alike_record (hR _ _ (.unquoting source path))).bind_same fun _ => ?_
  refine (alike_source hE hev source _ path).bind_same fun v => ?_
  split
  · exact alike_pure rfl
  · exact alike_failAt hE _ path

theorem alike_splice (source : Node) {path : Path} (hpath : path ≠ []) :
    Alike R E Eq (Expand.splice ev env options source path) (Expand.splice ev env options source (path.moved n)) :=
  (alike_record (hR _ _ (.splicing source path))).bind_same fun _ =>
    (alike_source hE hev source _ path).bind_same fun v => alike_splicedArgs hE hpath v

-- Below the root a place that is moved is extended like the place itself. Only the list at the root has
-- to start from another index, which is why lists have a relation of their own.
mutual
theorem alike_node {path : Path} (hpath : path ≠ []) (depth : Nat) : ∀ t : Template,
    Alike R E Eq (Expand.node ev env options path depth t) (Expand.node ev env options (path.moved n) depth t)
  | .node m => by
    rw [Expand.node, Expand.node]
    exact (alike_checkDepth hE path depth).bind_same fun _ => alike_pure rfl
  | .single source => by
    rw [Expand.node, Expand.node]
    exact (alike_checkDepth hE path depth).bind_same fun _ => alike_unquote hR hE hev source path
  | .call head args => by
    rw [node_call, node_call, ← Path.moved_append hpath]
    refine (alike_checkDepth hE path depth).bind_same fun _ => ?_
    refine (alike_node (List.append_ne_nil_of_left_ne_nil hpath _) (depth + 1) head).bind_same fun h => ?_
    refine (alike_checkExpanded hE head _ h).bind_same fun _ => ?_
    exact (alike_argList (movesTo_of_ne_nil hpath n 0) (depth + 1) args).bind_same fun _ => alike_pure rfl
  | .pairlist args => by
    rw [Expand.node, Expand.node]
    refine (alike_checkDepth hE path depth).bind_same fun _ => ?_
    exact (alike_argList (movesTo_of_ne_nil hpath n 0) (depth + 1) args).bind_same fun _ => alike_pure rfl

theorem alike_argList {path path' : Path} {i i' : Nat} (h : MovesTo n path i path' i') (depth : Nat) :
    ∀ parts : List (Part Template), Alike R E Eq (Expand.argList ev env options path depth i parts)
      (Expand.argList ev env options path' depth i' parts)
  | [] => by
    rw [Expand.argList, Expand.argList]
    exact alike_pure rfl
  | .arg name value :: rest => by
    have hpath : path ++ [.arg i] ≠ [] := List.append_ne_nil_of_right_ne_nil _ nofun
    rw [Expand.argList, Expand.argList, ← h.arg_first]
    refine (alike_node hpath depth value).bind_same fun _ => ?_
    exact (alike_argList h.next depth rest).bind_same fun _ => alike_pure rfl
  | .splice source :: rest => by
    have hpath : path ++ [.arg i] ≠ [] := List.append_ne_nil_of_right_ne_nil _ nofun
    rw [Expand.argList, Expand.argList, ← h.arg_first]
    refine (alike_splice hR hE hev source hpath).bind_same fun _ => ?_
    exact (alike_argList h.next depth rest).bind_same fun _ => alike_pure rfl
  | .define nameSource value :: rest => by
    have hpath : path ++ [.arg i] ≠ [] := List.append_ne_nil_of_right_ne_nil _ nofun
    rw [Expand.argList, Expand.argList, ← h.arg_first, ← h.name_first]
    refine (alike_definitionName hE hev nameSource _).bind_same fun _ => ?_
    refine (alike_node hpath depth value).bind_same fun _ => ?_
    exact (alike_argList h.next depth rest).bind_same fun _ => alike_pure rfl
end

end

/-! ## Two lists that are joined -/

theorem argList_append (path : Path) (depth i : Nat) (xs ys : List (Part Template)) :
    Expand.argList ev env options path depth i (xs ++ ys) = (do
      let as ← Expand.argList ev env options path depth i xs
      let bs ← Expand.argList ev env options path depth (xs.length + i) ys
      return as ++ bs) := by
  induction xs generalizing i with
  | nil => simp [Expand.argList]
  | cons x xs ih =>
    have hlength : xs.length + (i + 1) = (x :: xs).length + i := by rw [List.length_cons]; omega
    cases x <;>
      simp only [List.cons_append, Expand.argList, ih, hlength, bind_assoc, pure_bind, List.append_assoc]

/-! ## A level further down -/

theorem checkDepth_deeper (path : Path) (depth : Nat) :
    Expand.checkDepth { options with maxDepth := options.maxDepth + 1 } path (depth + 1) =
      Expand.checkDepth options path depth := by
  simp [Expand.checkDepth]

mutual
theorem node_deeper (path : Path) (depth : Nat) : ∀ t : Template,
    Expand.node ev env { options with maxDepth := options.maxDepth + 1 } path (depth + 1) t =
      Expand.node ev env options path depth t
  | .node m => by rw [Expand.node, Expand.node, checkDepth_deeper]
  | .single source => by rw [Expand.node, Expand.node, checkDepth_deeper]
  | .call head args => by
    rw [node_call, node_call, checkDepth_deeper, node_deeper _ (depth + 1) head, argList_deeper path (depth + 1) 0 args]
  | .pairlist args => by
    rw [Expand.node, Expand.node, checkDepth_deeper, argList_deeper path (depth + 1) 0 args]

theorem argList_deeper (path : Path) (depth i : Nat) : ∀ parts : List (Part Template),
    Expand.argList ev env { options with maxDepth := options.maxDepth + 1 } path (depth + 1) i parts =
      Expand.argList ev env options path depth i parts
  | [] => by rw [Expand.argList, Expand.argList]
  | .arg name value :: rest => by
    rw [Expand.argList, Expand.argList, node_deeper _ depth value, argList_deeper path depth (i + 1) rest]
  | .splice source :: rest => by
    rw [Expand.argList, Expand.argList, argList_deeper path depth (i + 1) rest]
    rfl
  | .define nameSource value :: rest => by
    rw [Expand.argList, Expand.argList, node_deeper _ depth value, argList_deeper path depth (i + 1) rest]
end

/-! ## Calls and lists from their arguments -/

theorem argList_plain {parts : List (Part Template)} {as : List (Arg Node)}
    (h : Template.plainArgs? parts = some as) {path : Path} {depth : Nat} (hdepth : depth ≤ options.maxDepth)
    (i : Nat) : Expand.argList ev env options path depth i parts = pure as :=
  ExceptT.ext <| funext fun _ => Expand.ends_argList_plain h hdepth

/-- A call of a plain head expands to the call with what its arguments expand to. -/
theorem node_call_plain {path : Path} {depth : Nat} (hdepth : depth < options.maxDepth) (h : Node)
    (args : List (Part Template)) :
    Expand.node ev env options path depth (.call (.node h) args) = (do
      return .call h (← Expand.argList ev env options path (depth + 1) 0 args)) := by
  rw [node_call, Expand.node, checkDepth_of_le (Nat.le_of_lt hdepth), checkDepth_of_le hdepth]
  simp [checkExpanded, Template.isPlain]

theorem node_apply {path : Path} {depth : Nat} (hdepth : depth < options.maxDepth) (h : Node)
    (args : List (Part Template)) :
    Expand.node ev env options path depth (.apply (.node h) args) = (do
      return .call h (← Expand.argList ev env options path (depth + 1) 0 args)) := by
  rcases Template.apply_eq (.node h) args with happly | ⟨h', as, hhead, has, happly⟩
  · rw [happly, node_call_plain hdepth]
  · -- a collapsed call is not looked into, and its arguments are plain at a level that is allowed
    cases hhead
    rw [happly, Expand.node, checkDepth_of_le (Nat.le_of_lt hdepth), argList_plain has hdepth]
    simp

theorem node_pairlist {path : Path} {depth : Nat} (hdepth : depth < options.maxDepth) (args : List (Part Template)) :
    Expand.node ev env options path depth (.pairlist args) = (do
      return .pairlist (← Expand.argList ev env options path (depth + 1) 0 args)) := by
  rw [Expand.node, checkDepth_of_le (Nat.le_of_lt hdepth)]
  simp

theorem node_ofArgs {path : Path} {depth : Nat} (hdepth : depth < options.maxDepth) (args : List (Part Template)) :
    Expand.node ev env options path depth (.ofArgs args) = (do
      return .pairlist (← Expand.argList ev env options path (depth + 1) 0 args)) := by
  rcases Template.ofArgs_eq args with hofArgs | ⟨as, has, hofArgs⟩
  · rw [hofArgs, node_pairlist hdepth]
  · rw [hofArgs, Expand.node, checkDepth_of_le (Nat.le_of_lt hdepth), argList_plain has hdepth]
    simp

/-! ## Expansion -/

/-- With one level more, a call of a plain head gives what its arguments give by themselves. -/
theorem expand_call_deeper (h : Node) (args : List (Part Template)) :
    expand ev env { options with maxDepth := options.maxDepth + 1 } (.call (.node h) args) = (do
      return .call h (← expandArgs ev env options args)) := by
  rw [expand, node_call_plain (Nat.succ_pos _), argList_deeper]
  rfl

theorem expand_apply_deeper (h : Node) (args : List (Part Template)) :
    expand ev env { options with maxDepth := options.maxDepth + 1 } (.apply (.node h) args) = (do
      return .call h (← expandArgs ev env options args)) := by
  rw [expand, node_apply (Nat.succ_pos _), argList_deeper]
  rfl

theorem expand_pairlist_deeper (args : List (Part Template)) :
    expand ev env { options with maxDepth := options.maxDepth + 1 } (.pairlist args) = (do
      return .pairlist (← expandArgs ev env options args)) := by
  rw [expand, node_pairlist (Nat.succ_pos _), argList_deeper]
  rfl

theorem expand_ofArgs_deeper (args : List (Part Template)) :
    expand ev env { options with maxDepth := options.maxDepth + 1 } (.ofArgs args) = (do
      return .pairlist (← expandArgs ev env options args)) := by
  rw [expand, node_ofArgs (Nat.succ_pos _), argList_deeper]
  rfl

theorem checkedCall_of_isHead {h : Node} (hh : h.isHead = true) (args : List (Part Template)) :
    Template.checkedCall (.node h) args = .ok (.apply (.node h) args) := by
  rw [Template.checkedCall, Node.requireHead_eq_ok_iff.2 hh]
  rfl

theorem buildCall_deeper {c : Callee} {h : Node} (hc : c.head = .ok h) (hh : h.isHead = true)
    (args : List (Part Template)) :
    buildCall ev env { options with maxDepth := options.maxDepth + 1 } c args = (do
      Run.record (.building h)
      return .call h (← expandArgs ev env options args)) := by
  rw [buildCall, hc]
  show (do Run.record (.building h); let t ← Run.ofExcept _; expand ev env _ t) = _
  rw [checkedCall_of_isHead hh, ← expand_apply_deeper h args]
  rfl

end

/-- Two lists that are joined expand as the first one, and then, from the state it left, the second
one, with its places moved behind the first. -/
theorem endsAlike_expandArgs_append {fuel : Nat} {env : FrameId} {options : ExpandOptions} {xs : List (Part Template)}
    {s t : State} {as : List (Arg Node)} (h : (expandArgs (eval fuel) env options xs).Ends s (.ok as) t)
    (ys : List (Part Template)) :
    EndsAlike (Event.Moved xs.length) (fun e e' => e' = e.moved xs.length) (fun bs cs => cs = as ++ bs)
      ((expandArgs (eval fuel) env options ys).run.run t)
      ((expandArgs (eval fuel) env options (xs ++ ys)).run.run s) := by
  have hys : Alike (Event.Moved xs.length) (fun e e' => e' = e.moved xs.length) Eq
      (expandArgs (eval fuel) env options ys) (Expand.argList (eval fuel) env options [] 0 xs.length ys) :=
    alike_argList (E := fun e e' => e' = e.moved xs.length) (fun _ _ he => he) (fun _ => rfl) (alike_eval .same fuel)
      (movesTo_root xs.length 0) 0 ys
  have hjoined := hys.bind (f := pure) (B := fun bs cs => cs = as ++ bs) fun _ _ hbs =>
    alike_pure (congrArg (as ++ ·) hbs.symm)
  have happend : (expandArgs (eval fuel) env options (xs ++ ys)).run.run s =
      (Expand.argList (eval fuel) env options [] 0 xs.length ys >>= fun bs => pure (as ++ bs)).run.run t := by
    rw [expandArgs, argList_append]
    exact run_bind_of_ends h
  rw [happend]
  simpa only [bind_pure] using hjoined t t (logsAlike_refl .same t)

/-- Argument lists expand one entry after the other, and the same way everywhere. Of two lists that
are joined the second one goes on where the first one ended: if the first one fails or is cut off,
so they do together, and otherwise they do what the second one does, with its places moved behind
the first one, and give both results in order. With one level more to go down, a call of a head
that can be called, a list, and a call that is built give what the arguments give by themselves,
from every state and with the same failures. -/
theorem arguments_expand_by_themselves (fuel : Nat) (env : FrameId) (options : ExpandOptions) :
    (∀ xs ys s,
      ((expandArgs (eval fuel) env options xs).run.run s = none →
        (expandArgs (eval fuel) env options (xs ++ ys)).run.run s = none) ∧
      (∀ e t, (expandArgs (eval fuel) env options xs).Ends s (.error e) t →
        (expandArgs (eval fuel) env options (xs ++ ys)).Ends s (.error e) t) ∧
      ∀ as t, (expandArgs (eval fuel) env options xs).Ends s (.ok as) t →
        EndsAlike (Event.Moved xs.length) (fun e e' => e' = e.moved xs.length) (fun bs cs => cs = as ++ bs)
          ((expandArgs (eval fuel) env options ys).run.run t)
          ((expandArgs (eval fuel) env options (xs ++ ys)).run.run s)) ∧
    let deeper : ExpandOptions := { options with maxDepth := options.maxDepth + 1 }
    ∀ args : List (Part Template),
      let pairlist : Run Node := do return .pairlist (← expandArgs (eval fuel) env options args)
      expand (eval fuel) env deeper (.pairlist args) = pairlist ∧
      expand (eval fuel) env deeper (.ofArgs args) = pairlist ∧
      ∀ h : Node, h.isHead = true →
        let call : Run Node := do return .call h (← expandArgs (eval fuel) env options args)
        expand (eval fuel) env deeper (.call (.node h) args) = call ∧
        (∃ t, Template.checkedCall (.node h) args = .ok t ∧ expand (eval fuel) env deeper t = call) ∧
        ∀ c : Callee, c.head = .ok h →
          buildCall (eval fuel) env deeper c args = (do Run.record (.building h); call) := by
  refine ⟨fun xs ys s => ⟨fun h => ?_, fun e t h => ?_, fun as t h => endsAlike_expandArgs_append h ys⟩, ?_⟩
  · rw [expandArgs, argList_append, run_bind]
    rw [expandArgs] at h
    rw [h]
  · rw [expandArgs, argList_append]
    exact ends_bind_error.2 (.inr h)
  · intro deeper args
    refine ⟨expand_pairlist_deeper args, expand_ofArgs_deeper args, fun h hh => ?_⟩
    exact ⟨expand_call_deeper h args, ⟨_, checkedCall_of_isHead hh args, expand_apply_deeper h args⟩,
      fun c hc => buildCall_deeper hc hh args⟩

/-- What cannot be spliced from the second entry of `v` is found behind `!!x` in `f(!!x, !!!v)`, for
which one level is enough. -/
theorem arguments_expand_by_themselves_splice :
    let one : Node := .const (.number (.int 1))
    let xs : List (Part Template) := [.unnamed (.single (.symbol "x"))]
    let ys : List (Part Template) := [.splice (.symbol "v")]
    ∃ s s' t t', (expandArgs (eval 1) 0 { maxDepth := 0 } xs).Ends s' (.ok [.unnamed one]) t ∧
      (expandArgs (eval 1) 0 { maxDepth := 0 } ys).Ends t
        (.error (.atPath (.splice (.value .function)) [.arg 0, .arg 1]))
        (t.logging (.splicing (.symbol "v") [.arg 0])) ∧
      (buildCall (eval 1) 0 { maxDepth := 1 } (.name "f") (xs ++ ys)).Ends s
        (.error (.atPath (.splice (.value .function)) [.arg 1, .arg 1])) t' := by
  intro one xs ys
  let s := State.ofBindings
    [("x", .value (.ofNode one)),
      ("v", .value (.list [.unnamed (.ofNode one), .unnamed (.function (.builtin 0 "+" .add))]))]
  let s' := s.logging (.building (.symbol "f"))
  let t := s'.logging (.unquoting (.symbol "x") [.arg 0])
  have hxs : (expandArgs (eval 1) 0 { maxDepth := 0 } xs).Ends s' (.ok [.unnamed one]) t := rfl
  have hys : (expandArgs (eval 1) 0 { maxDepth := 0 } ys).Ends t
      (.error (.atPath (.splice (.value .function)) [.arg 0, .arg 1]))
      (t.logging (.splicing (.symbol "v") [.arg 0])) := rfl
  obtain ⟨hjoined, hdeeper⟩ := arguments_expand_by_themselves 1 0 { maxDepth := 0 }
  obtain ⟨_, t', hboth, rfl, _⟩ := ((hjoined xs ys s').2.2 _ t hxs).ends_error hys
  refine ⟨s, s', t, t', hxs, hys, ?_⟩
  have hbuild := ((hdeeper (xs ++ ys)).2.2 (.symbol "f") rfl).2.2 (.name "f") rfl
  rw [show buildCall (eval 1) 0 { maxDepth := 1 } (.name "f") (xs ++ ys) = _ from hbuild]
  exact ends_record_bind.2 (ends_bind_error.2 (.inr hboth))

end Quotation
