import Quotation.Proofs.Run.Outcome
import Quotation.Template.Expansion
/-!
# The places of a template in reading order

Expansion visits the places of a template one after the other: the head of a call
before its arguments, arguments from left to right, the name of a definition before
its value. `visits` lists what it does on the way, and the run of a template is the run
of that list (`expand_eq_runAll`), apart from the node that is put together. What
precedes a place is thus what stands before it in the list.
-/

namespace Quotation

/-- What expansion does at one place. -/
inductive Visit where
  /-- comes to a template that is below so many calls and lists -/
  | enter (path : Path) (depth : Nat)
  /-- fills a single marker, with something that can be called if that is the place of a head -/
  | unquote (path : Path) (source : Node) (atHead : Bool)
  | splice (path : Path) (source : Node)
  | name (path : Path) (source : Node)
  /-- has expanded a list at the head of a call -/
  | listHead (path : Path)

namespace Visit

def path : Visit → Path
  | enter path _ => path
  | unquote path _ _ => path
  | splice path _ => path
  | name path _ => path
  | listHead path => path

variable (ev : Evaluator) (env : FrameId) (options : ExpandOptions)

def run : Visit → Run Unit
  | enter path depth => Expand.checkDepth options path depth
  | unquote path source atHead => do
    let n ← Expand.unquote ev env source path
    if atHead then Run.ofExcept (n.requireHead path)
  | splice path source => do
    let _ ← Expand.splice ev env options source path
  | name path source => do
    let _ ← Expand.definitionName ev env source path
  | listHead path => Run.failAt (.invalidHead .pairlist) path

/-- One visit after the other. -/
def runAll : List Visit → Run Unit
  | [] => return
  | v :: vs => do
    v.run ev env options
    runAll vs

end Visit

namespace Template

mutual
/-- The visits of a template at a place, which may be that of a head. -/
def visits (path : Path) (depth : Nat) (atHead : Bool) : Template → List Visit
  | node _ => [.enter path depth]
  | single source => [.enter path depth, .unquote path source atHead]
  | call head args =>
    .enter path depth ::
      (visits (path ++ [.head]) (depth + 1) true head ++ partVisits path (depth + 1) 0 args)
  | pairlist args =>
    .enter path depth ::
      (partVisits path (depth + 1) 0 args ++ if atHead then [.listHead path] else [])

/-- The visits of the parts of a list, the first of which has the given index. -/
def partVisits (path : Path) (depth i : Nat) : List (Part Template) → List Visit
  | [] => []
  | .arg _ value :: rest =>
    visits (path ++ [.arg i]) depth false value ++ partVisits path depth (i + 1) rest
  | .splice source :: rest => .splice (path ++ [.arg i]) source :: partVisits path depth (i + 1) rest
  | .define nameSource value :: rest =>
    .name (path ++ [.name i]) nameSource ::
      (visits (path ++ [.arg i]) depth false value ++ partVisits path depth (i + 1) rest)
end

end Template

namespace Visit

variable (ev : Evaluator) (env : FrameId) (options : ExpandOptions)

theorem runAll_append (vs ws : List Visit) :
    runAll ev env options (vs ++ ws) =
      (runAll ev env options vs >>= fun _ => runAll ev env options ws) := by
  induction vs with
  | nil => simp [runAll]
  | cons v vs ih => simp [runAll, ih]

end Visit

section
variable (ev : Evaluator) (env : FrameId) (options : ExpandOptions)

mutual
theorem node_eq_runAll (path : Path) (depth : Nat) (atHead : Bool) : ∀ t : Template,
    (do
      let n ← Expand.node ev env options path depth t
      if atHead && !t.isPlain then Run.ofExcept (n.requireHead path)) =
    Visit.runAll ev env options (t.visits path depth atHead)
  | .node n => by simp [Expand.node, Template.visits, Visit.runAll, Visit.run, Template.isPlain]
  | .single source => by
    simp [Expand.node, Template.visits, Visit.runAll, Visit.run, Template.isPlain]
  | .call head args => by
    have hhead := node_eq_runAll (path ++ [.head]) (depth + 1) true head
    have hargs := argList_eq_runAll path (depth + 1) 0 args
    simp only [Template.visits, Visit.runAll, Visit.run, Visit.runAll_append, ← hhead, ← hargs, Expand.node]
    -- The head is checked if it has holes; a call that stands at a head itself always passes.
    cases atHead <;> cases hp : head.isPlain <;>
      simp [Template.isPlain, Node.requireHead, Node.isHead, Run.ofExcept]
  | .pairlist args => by
    have hargs := argList_eq_runAll path (depth + 1) 0 args
    simp only [Template.visits, Visit.runAll, Visit.run, Visit.runAll_append, ← hargs, Expand.node]
    -- A list at a head expands and is rejected then.
    cases atHead <;>
      simp [Template.isPlain, Node.requireHead, Node.isHead, Node.kind, Run.ofExcept, Run.failAt, Visit.runAll, Visit.run]

theorem argList_eq_runAll (path : Path) (depth i : Nat) : ∀ args : List (Part Template),
    (do let _ ← Expand.argList ev env options path depth i args) =
    Visit.runAll ev env options (Template.partVisits path depth i args)
  | [] => by simp [Expand.argList, Template.partVisits, Visit.runAll]
  | .arg name value :: rest => by
    have hvalue := node_eq_runAll (path ++ [.arg i]) depth false value
    have hrest := argList_eq_runAll path depth (i + 1) rest
    simp only [Template.partVisits, Visit.runAll_append, ← hvalue, ← hrest, Expand.argList]
    simp
  | .splice source :: rest => by
    have hrest := argList_eq_runAll path depth (i + 1) rest
    simp only [Template.partVisits, Visit.runAll, Visit.run, ← hrest, Expand.argList]
    simp
  | .define nameSource value :: rest => by
    have hvalue := node_eq_runAll (path ++ [.arg i]) depth false value
    have hrest := argList_eq_runAll path depth (i + 1) rest
    simp only [Template.partVisits, Visit.runAll, Visit.run, Visit.runAll_append, ← hvalue, ← hrest,
      Expand.argList]
    simp
end

/-- Apart from its node, expanding a template is visiting its places in order. -/
theorem expand_eq_runAll (t : Template) :
    (do let _ ← expand ev env options t) = Visit.runAll ev env options (t.visits [] 0 false) := by
  rw [← node_eq_runAll]
  simp [expand]
end

/-- Where a list of visits fails, it fails at one of them, and those before it have
succeeded. -/
theorem runAll_error {ev : Evaluator} {env : FrameId} {options : ExpandOptions} {vs : List Visit}
    {s s' : State} {e : Error} (h : (Visit.runAll ev env options vs).Ends s (.error e) s') :
    ∃ before v after t, vs = before ++ v :: after ∧
      (Visit.runAll ev env options before).Ends s (.ok ()) t ∧ (v.run ev env options).Ends t (.error e) s' := by
  induction vs generalizing s with
  | nil =>
    cases (Run.ends_pure.1 h).1
  | cons v vs ih =>
    rcases Run.ends_bind_error.1 h with ⟨_, u, hv, hvs⟩ | hv
    · obtain ⟨before, w, after, t, rfl, hbefore, hw⟩ := ih hvs
      exact ⟨v :: before, w, after, t, rfl, Run.ends_bind_ok.2 ⟨_, u, hv, hbefore⟩, hw⟩
    · exact ⟨[], v, vs, s, rfl, Run.ends_pure.2 ⟨rfl, rfl⟩, hv⟩

end Quotation
