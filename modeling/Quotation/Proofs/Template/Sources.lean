import Quotation.Eval.Evaluator
import Quotation.Proofs.Template.Visit
/-!
# Sources are evaluated in reading order

A marker is a hole of a template with the source that fills it. `markersAt` lists the
markers of a template as they are read: a head before its arguments, arguments from left
to right, the name of a definition before its value. Whatever an expansion comes to, it
has evaluated a beginning of that list, source by source, and has done nothing else to the
state (`expand_evaluates_in_order`). What is done with a value once it is there only decides
whether the expansion goes on (`Still`).
-/

namespace Quotation

/-! ## Markers -/

/-- What the value of a source is put in place as. -/
inductive MarkerKind where
  | node
  | arguments
  | name
deriving DecidableEq

/-- A hole at a place. -/
structure Marker where
  kind : MarkerKind
  path : Path
  source : Node

namespace Template

mutual
/-- The markers of a template at a place, in reading order. -/
def markersAt (path : Path) : Template → List Marker
  | node _ => []
  | single source => [⟨.node, path, source⟩]
  | call head args => markersAt (path ++ [.head]) head ++ partMarkers path 0 args
  | pairlist args => partMarkers path 0 args

/-- The markers of the parts of a list, the first of which has the given index. -/
def partMarkers (path : Path) (i : Nat) : List (Part Template) → List Marker
  | [] => []
  | .arg _ value :: rest => markersAt (path ++ [.arg i]) value ++ partMarkers path (i + 1) rest
  | .splice source :: rest => ⟨.arguments, path ++ [.arg i], source⟩ :: partMarkers path (i + 1) rest
  | .define nameSource value :: rest =>
    ⟨.name, path ++ [.name i], nameSource⟩ ::
      (markersAt (path ++ [.arg i]) value ++ partMarkers path (i + 1) rest)
end

/-- The markers of a template, in reading order. -/
def markers (t : Template) : List Marker := markersAt [] t

/-- The sources of a template, in reading order. -/
def sources (t : Template) : List Node := t.markers.map (·.source)

end Template

namespace Marker

/-- What is wrong at a marker whose source fails. -/
def cause (m : Marker) : Cause :=
  match m.kind with
  | .node => .unquote .failed
  | .arguments => .splice .failed
  | .name => .definitionName .failed

/-- Evaluates the source. Apart from names this is announced in the log. -/
def evaluate (ev : Evaluator) (env : FrameId) (m : Marker) : Run Value :=
  match m.kind with
  | .node => do
    Run.record (.unquoting m.source m.path)
    ev m.source env
  | .arguments => do
    Run.record (.splicing m.source m.path)
    ev m.source env
  | .name => ev m.source env

/-- Evaluates the sources of markers one after the other, for what that does to the state. -/
def evaluateAll (ev : Evaluator) (env : FrameId) : List Marker → Run Unit
  | [] => return
  | m :: ms => do
    let _ ← m.evaluate ev env
    evaluateAll ev env ms

end Marker

open Marker Run

/-- What a run comes to that evaluates the sources of these markers in order, each at most
once, and changes the state in no other way. `none` is a run that does not end. -/
inductive Evaluates (ev : Evaluator) (env : FrameId) {α : Type} (ms : List Marker) (s : State) :
    Option (Except Error α × State) → Prop
  | all {a s'} : (evaluateAll ev env ms).Ends s (.ok ()) s' → Evaluates ev env ms s (some (.ok a, s'))
  /-- It fails after some of them, over what one of them gave or over something else. -/
  | stopped {done e s'} : done <+: ms → (evaluateAll ev env done).Ends s (.ok ()) s' →
      Evaluates ev env ms s (some (.error e, s'))
  /-- The last source that is evaluated fails. -/
  | failed {done m t e s'} : done ++ [m] <+: ms → (evaluateAll ev env done).Ends s (.ok ()) t →
      (m.evaluate ev env).Ends t (.error e) s' →
      Evaluates ev env ms s (some (.error (.causedBy m.cause m.path e), s'))
  | cutOff {done m t} : done ++ [m] <+: ms → (evaluateAll ev env done).Ends s (.ok ()) t →
      (m.evaluate ev env).run.run t = none → Evaluates ev env ms s none

variable {α β : Type} {ev : Evaluator} {env : FrameId} {options : ExpandOptions} {s s' : State}

theorem evaluateAll_append (ms ns : List Marker) :
    evaluateAll ev env (ms ++ ns) = (evaluateAll ev env ms >>= fun _ => evaluateAll ev env ns) := by
  induction ms with
  | nil => simp [evaluateAll]
  | cons m ms ih => simp [evaluateAll, ih]

theorem ends_evaluateAll_cons {m : Marker} {ms : List Marker} :
    (evaluateAll ev env (m :: ms)).Ends s (.ok ()) s' ↔
      ∃ v t, (m.evaluate ev env).Ends s (.ok v) t ∧ (evaluateAll ev env ms).Ends t (.ok ()) s' :=
  ends_bind_ok

/-- One more source that has been evaluated stands before the others. -/
theorem Evaluates.cons {m : Marker} {ms : List Marker} {v : Value} {t : State}
    {outcome : Option (Except Error α × State)} (hm : (m.evaluate ev env).Ends s (.ok v) t)
    (h : Evaluates ev env ms t outcome) : Evaluates ev env (m :: ms) s outcome := by
  cases h with
  | all hms => exact .all (ends_evaluateAll_cons.2 ⟨v, t, hm, hms⟩)
  | stopped hpre hdone =>
    exact .stopped (List.cons_prefix_cons.2 ⟨rfl, hpre⟩) (ends_evaluateAll_cons.2 ⟨v, t, hm, hdone⟩)
  | failed hpre hdone hlast =>
    exact .failed (List.cons_prefix_cons.2 ⟨rfl, hpre⟩) (ends_evaluateAll_cons.2 ⟨v, t, hm, hdone⟩) hlast
  | cutOff hpre hdone hlast =>
    exact .cutOff (List.cons_prefix_cons.2 ⟨rfl, hpre⟩) (ends_evaluateAll_cons.2 ⟨v, t, hm, hdone⟩) hlast

/-- What becomes of the value does not matter. -/
theorem Evaluates.of_discard {ms : List Marker} {x : Run α}
    (h : Evaluates ev env ms s ((do let _ ← x; pure () : Run Unit).run.run s)) :
    Evaluates ev env ms s (x.run.run s) := by
  rw [run_bind] at h
  rcases hx : x.run.run s with _ | ⟨e | a, s'⟩ <;> rw [hx] at h
  · cases h with
    | cutOff hpre hdone hlast => exact .cutOff hpre hdone hlast
  · cases h with
    | stopped hpre hdone => exact .stopped hpre hdone
    | failed hpre hdone hlast => exact .failed hpre hdone hlast
  · cases h with
    | all hms => exact .all hms

theorem Evaluates.of_nil {outcome : Option (Except Error α × State)} (h : Evaluates ev env [] s outcome) :
    ∃ r, outcome = some (r, s) := by
  cases h with
  | all hms =>
    obtain ⟨-, rfl⟩ := ends_pure.1 hms
    exact ⟨_, rfl⟩
  | stopped hpre hdone =>
    rw [List.prefix_nil.1 hpre] at hdone
    obtain ⟨-, rfl⟩ := ends_pure.1 hdone
    exact ⟨_, rfl⟩
  | failed hpre | cutOff hpre => simp at hpre

/-! ## Runs that leave the state alone -/

/-- The run ends, in the state in which it began. -/
def Run.Still (x : Run α) : Prop := ∀ s, ∃ r, x.Ends s r s

theorem still_pure (a : α) : (pure a : Run α).Still := fun _ => ⟨_, ends_pure.2 ⟨rfl, rfl⟩⟩

theorem still_failAt (c : Cause) (path : Path) : (failAt c path : Run α).Still :=
  fun _ => ⟨_, ends_failAt.2 ⟨rfl, rfl⟩⟩

theorem still_ofExcept (x : Except Error α) : (ofExcept x).Still := fun _ => ⟨x, ends_ofExcept.2 ⟨rfl, rfl⟩⟩

theorem Run.Still.bind {x : Run α} {f : α → Run β} (hx : x.Still) (hf : ∀ a, (f a).Still) : (x >>= f).Still := by
  intro s
  obtain ⟨e | a, hxs⟩ := hx s
  · exact ⟨.error e, ends_bind.2 (.inr ⟨e, hxs, rfl⟩)⟩
  · obtain ⟨r, hr⟩ := hf a s
    exact ⟨r, ends_bind.2 (.inl ⟨a, s, hxs, hr⟩)⟩

theorem still_checkDepth (path : Path) (depth : Nat) : (Expand.checkDepth options path depth).Still := by
  unfold Expand.checkDepth
  split
  · exact still_failAt _ _
  · exact still_pure _

theorem still_spliceEntries (path : Path) (j : Nat) (entries : List (Arg Value)) :
    (Expand.spliceEntries path j entries).Still := by
  induction entries generalizing j with
  | nil => exact still_pure _
  | cons e es ih =>
    unfold Expand.spliceEntries
    split
    · exact (ih (j + 1)).bind fun _ => still_pure _
    · exact still_failAt _ _

theorem still_splicedArgs (path : Path) (v : Value) : (Expand.splicedArgs options path v).Still := by
  unfold Expand.splicedArgs
  split
  · split
    · exact still_pure _
    · exact still_failAt _ _
  · exact still_spliceEntries _ _ _
  · exact still_pure _
  · exact still_failAt _ _

/-! ## One visit -/

namespace Visit

/-- The marker whose source the visit evaluates. -/
def marker? : Visit → Option Marker
  | enter _ _ => none
  | unquote path source _ => some ⟨.node, path, source⟩
  | splice path source => some ⟨.arguments, path, source⟩
  | name path source => some ⟨.name, path, source⟩
  | listHead _ => none

/-- A visit without a marker leaves the state alone. -/
theorem still_of_marker?_eq_none {v : Visit} (h : v.marker? = none) : (v.run ev env options).Still := by
  cases v with
  | enter path depth => exact still_checkDepth _ _
  | listHead path => exact still_failAt _ _
  | unquote | splice | name => cases h

theorem unquote_eq (source : Node) (path : Path) : Expand.unquote ev env source path =
    (evaluate ev env ⟨.node, path, source⟩).explain (.unquote .failed) path >>= fun value =>
      match value.toNode? with
      | some n => pure n
      | none => failAt (.unquote (.value value.type)) path := by
  show _ = (Run.record (.unquoting source path) >>= fun _ => ev source env).explain _ path >>= _
  rw [explain_record_bind, bind_assoc]
  rfl

theorem definitionName_eq (source : Node) (path : Path) : Expand.definitionName ev env source path =
    (evaluate ev env ⟨.name, path, source⟩).explain (.definitionName .failed) path >>= fun value =>
      match Expand.nameOf value with
      | .ok label => pure label
      | .error what => failAt (.definitionName what) path := rfl

/-- A visit with a marker evaluates the source, blames the marker if that fails, and
leaves the state alone from then on. -/
theorem run_of_marker? {v : Visit} {m : Marker} (h : v.marker? = some m) :
    ∃ rest : Value → Run Unit, (∀ value, (rest value).Still) ∧
      v.run ev env options = (m.evaluate ev env).explain m.cause m.path >>= rest := by
  cases v with
  | enter | listHead => cases h
  | unquote path source atHead =>
    cases h
    refine ⟨fun value => (match value.toNode? with
      | some n => pure n
      | none => failAt (.unquote (.value value.type)) path) >>= fun n =>
        if atHead then Run.ofExcept (n.requireHead path) else pure (), fun value => ?_, ?_⟩
    · refine Still.bind ?_ fun n => ?_
      · split
        · exact still_pure _
        · exact still_failAt _ _
      · split
        · exact still_ofExcept _
        · exact still_pure _
    · rw [run, unquote_eq, bind_assoc]
      rfl
  | splice path source =>
    cases h
    refine ⟨fun value => Expand.splicedArgs options path value >>= fun _ => pure (),
      fun value => (still_splicedArgs _ _).bind fun _ => still_pure _, ?_⟩
    simp only [run, Expand.splice, Marker.evaluate, Marker.cause, explain_record_bind, bind_assoc]
  | name path source =>
    cases h
    refine ⟨fun value => (match Expand.nameOf value with
      | .ok label => pure label
      | .error what => failAt (.definitionName what) path) >>= fun _ => pure (), fun value => ?_, ?_⟩
    · refine Still.bind ?_ fun _ => still_pure _
      split
      · exact still_pure _
      · exact still_failAt _ _
    · rw [run, definitionName_eq, bind_assoc]
      rfl

/-- A list of visits evaluates the sources of its markers in order. -/
theorem evaluates_runAll (vs : List Visit) (s : State) :
    Evaluates ev env (vs.filterMap marker?) s ((runAll ev env options vs).run.run s) := by
  induction vs generalizing s with
  | nil => exact .all (ends_pure.2 ⟨rfl, rfl⟩)
  | cons v vs ih =>
    unfold runAll
    rw [run_bind]
    cases hm : v.marker? with
    | none =>
      rw [List.filterMap_cons_none hm]
      have hstill : (v.run ev env options).Still := still_of_marker?_eq_none hm
      obtain ⟨e | u, hv⟩ := hstill s
      · rw [hv]
        exact .stopped List.nil_prefix (ends_pure.2 ⟨rfl, rfl⟩)
      · rw [hv]
        exact ih s
    | some m =>
      rw [List.filterMap_cons_some hm]
      have hfirst : [] ++ [m] <+: m :: vs.filterMap marker? := List.prefix_append [m] _
      obtain ⟨rest, hrest, hv⟩ := @run_of_marker? ev env options v m hm
      rw [hv, run_explain_bind]
      rcases hsource : (m.evaluate ev env).run.run s with _ | ⟨e | value, t⟩
      · exact .cutOff hfirst (ends_pure.2 ⟨rfl, rfl⟩) hsource
      · exact .failed hfirst (ends_pure.2 ⟨rfl, rfl⟩) hsource
      · dsimp only
        obtain ⟨e | u, hvalue⟩ := hrest value t
        · rw [hvalue]
          exact .cons hsource (.stopped List.nil_prefix (ends_pure.2 ⟨rfl, rfl⟩))
        · rw [hvalue]
          exact .cons hsource (ih t)

end Visit

/-! ## The visits of a template -/

namespace Template

mutual
/-- The markers of a template are those of its visits. -/
theorem filterMap_visits (path : Path) (depth : Nat) (atHead : Bool) : ∀ t : Template,
    (t.visits path depth atHead).filterMap Visit.marker? = t.markersAt path
  | .node _ => rfl
  | .single _ => rfl
  | .call head args => by
    rw [visits, List.filterMap_cons_none rfl, List.filterMap_append, filterMap_visits _ _ _ head,
      filterMap_partVisits _ _ _ args, markersAt]
  | .pairlist args => by
    rw [visits, List.filterMap_cons_none rfl, List.filterMap_append, filterMap_partVisits _ _ _ args, markersAt]
    cases atHead <;> simp [Visit.marker?]

theorem filterMap_partVisits (path : Path) (depth i : Nat) : ∀ parts : List (Part Template),
    (partVisits path depth i parts).filterMap Visit.marker? = partMarkers path i parts
  | [] => rfl
  | .arg _ value :: rest => by
    rw [partVisits, List.filterMap_append, filterMap_visits _ _ _ value, filterMap_partVisits _ _ _ rest, partMarkers]
  | .splice source :: rest => by
    rw [partVisits, partMarkers, ← filterMap_partVisits _ _ _ rest]
    rfl
  | .define nameSource value :: rest => by
    rw [partVisits, partMarkers, ← filterMap_visits _ depth false value, ← filterMap_partVisits _ depth _ rest,
      ← List.filterMap_append]
    rfl
end

end Template

/-- Where a template expands, the sources of its markers have been evaluated in order. -/
theorem ends_evaluateAll_of_node {t : Template} {path : Path} {depth : Nat} {n : Node}
    (h : (Expand.node ev env options path depth t).Ends s (.ok n) s') :
    (evaluateAll ev env (t.markersAt path)).Ends s (.ok ()) s' := by
  have hrun : (Visit.runAll ev env options (t.visits path depth false)).Ends s (.ok ()) s' := by
    rw [← node_eq_runAll]
    exact ends_bind_ok.2 ⟨n, s', h, ends_pure.2 ⟨rfl, rfl⟩⟩
  have heval := @Visit.evaluates_runAll ev env options (t.visits path depth false) s
  rw [hrun, Template.filterMap_visits] at heval
  cases heval with
  | all hall => exact hall

/-- An expansion evaluates the sources of its template in reading order: all of them if it
gives a node, else those up to the place where it stopped, each one once, in the
environment of the expansion, and in the state that the one before it left. Apart from
that it leaves the state alone, so that a template without sources changes nothing. The
evaluator is any; for one that counts its calls these are the calls. -/
theorem expand_evaluates_in_order (t : Template) (s : State) :
    Evaluates ev env t.markers s ((expand ev env options t).run.run s) ∧
      (t.sources = [] → ∃ r, (expand ev env options t).Ends s r s) := by
  have heval : Evaluates ev env t.markers s ((expand ev env options t).run.run s) := by
    apply Evaluates.of_discard
    rw [expand_eq_runAll, Template.markers, ← Template.filterMap_visits [] 0 false t]
    exact Visit.evaluates_runAll _ s
  refine ⟨heval, fun hnone => ?_⟩
  rw [List.map_eq_nil_iff.1 hnone] at heval
  exact heval.of_nil

/-- The expansion of `f(!!x, !!!y, !!z)` where `y` is not bound, and that of `f(1)`. -/
theorem expand_evaluates_in_order_unbound : ∃ t u s,
    t.sources = [.symbol "x", .symbol "y", .symbol "z"] ∧
      (∃ e s', (expand (eval 2) 0 {} t).Ends s (.error e) s') ∧
      Evaluates (eval 2) 0 t.markers s ((expand (eval 2) 0 {} t).run.run s) ∧
      u.sources = [] ∧ ∃ r, (expand (eval 2) 0 {} u).Ends s r s := by
  let t : Template := .call (.node (.symbol "f"))
    [.unnamed (.single (.symbol "x")), .splice (.symbol "y"), .unnamed (.single (.symbol "z"))]
  let u : Template := .call (.node (.symbol "f")) [.unnamed (.node (.const (.number (.int 1))))]
  let s := State.ofBindings [("x", .value (.ofInt 1))]
  exact ⟨t, u, s, rfl, ⟨_, _, rfl⟩, (expand_evaluates_in_order t s).1, rfl, (expand_evaluates_in_order u s).2 rfl⟩

/-! ## Templates without markers -/

/-- What is closed ends alike everywhere, and leaves the state alone. -/
def Closed {α : Type} (x : Evaluator → FrameId → Run α) : Prop := ∃ r, ∀ ev env, x ev env = Run.ofExcept r

theorem Closed.bind {α β : Type} {x : Evaluator → FrameId → Run α} {f : Evaluator → FrameId → α → Run β}
    (hx : Closed x) (hf : ∀ a, Closed fun ev env => f ev env a) : Closed fun ev env => x ev env >>= f ev env := by
  obtain ⟨r, hr⟩ := hx
  cases r with
  | error e =>
    refine ⟨.error e, fun ev env => ?_⟩
    dsimp only
    rw [hr]
    rfl
  | ok a =>
    obtain ⟨q, hq⟩ := hf a
    refine ⟨q, fun ev env => ?_⟩
    dsimp only at hq ⊢
    rw [hr, ← hq ev env]
    rfl

theorem closed_ofExcept {α : Type} (x : Except Error α) : Closed fun _ _ => Run.ofExcept x := ⟨x, fun _ _ => rfl⟩

theorem closed_pure {α : Type} (a : α) : Closed fun _ _ => (pure a : Run α) := closed_ofExcept (.ok a)

theorem closed_checkDepth (path : Path) (depth : Nat) : Closed fun _ _ => Expand.checkDepth options path depth := by
  unfold Expand.checkDepth
  split
  · exact ⟨.error (.atPath .recursionLimit path), fun _ _ => rfl⟩
  · exact closed_pure ()

mutual
/-- Without markers a template is the same node wherever it is expanded. -/
theorem closed_node (path : Path) (depth : Nat) : ∀ t : Template, t.markersAt path = [] →
    Closed fun ev env => Expand.node ev env options path depth t
  | .node n, _ => (closed_checkDepth path depth).bind fun _ => closed_pure n
  | .call head args, h => by
    obtain ⟨hhead, hargs⟩ := List.append_eq_nil_iff.1 h
    have hrest (n : Node) : Closed fun ev env =>
        (do return Node.call n (← Expand.argList ev env options path (depth + 1) 0 args) : Run Node) :=
      (closed_argList path (depth + 1) 0 args hargs).bind fun _ => closed_pure _
    refine (closed_checkDepth path depth).bind fun _ => (closed_node _ _ head hhead).bind fun n => ?_
    by_cases hplain : head.isPlain = true
    · simpa [hplain] using hrest n
    · simpa [hplain] using (closed_ofExcept (n.requireHead (path ++ [.head]))).bind fun _ => hrest n
  | .pairlist args, h =>
    (closed_checkDepth path depth).bind fun _ =>
      (closed_argList path (depth + 1) 0 args h).bind fun _ => closed_pure _

theorem closed_argList (path : Path) (depth i : Nat) : ∀ parts : List (Part Template),
    Template.partMarkers path i parts = [] → Closed fun ev env => Expand.argList ev env options path depth i parts
  | [], _ => closed_pure []
  | .arg name value :: rest, h => by
    obtain ⟨hvalue, hrest⟩ := List.append_eq_nil_iff.1 h
    exact (closed_node _ depth value hvalue).bind fun _ =>
      (closed_argList path depth (i + 1) rest hrest).bind fun _ => closed_pure _
end

end Quotation
