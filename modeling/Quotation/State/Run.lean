import Quotation.State.Event
import Quotation.State.Store
/-!
# Runs

A run takes a state, and either ends with a value or a failure and the state it
has come to, or is cut off because it goes too deep. Failures keep the state: what
was bound, forced and recorded before them stays.

The state is the store, the events recorded so far, and the numbers by which a
session knows frames, promises and contexts.
-/

namespace Quotation

/-- Things a session has met, in order. A thing is known by its place here. -/
structure Known where
  envs : Array FrameId
  promises : Array PromiseId
  contexts : Array ContextId

/-- The place of a thing, which is added unless it is there. -/
def internIn (known : Array Nat) (id : Nat) : Nat × Array Nat :=
  match known.idxOf? id with
  | some i => (i, known)
  | none => (known.size, known.push id)

structure State where
  store : Store
  log : Array Event
  known : Known

def State.empty : State := ⟨.empty, #[], ⟨#[], #[], #[]⟩⟩

/-- A computation on the state that may fail, or be cut off. -/
abbrev Run := ExceptT Error (StateT State Option)

/-- What evaluates an expression in an environment. -/
abbrev Evaluator := Node → FrameId → Run Value

namespace Run

variable {α : Type}

/-- The run that is cut off. -/
def cutOff : Run α := ExceptT.mk fun _ => none

/-- Fails at the root. -/
def fail (cause : Cause) : Run α := throw (.of cause)

/-- Fails at a place. -/
def failAt (cause : Cause) (path : Path) : Run α := throw (.atPath cause path)

def ofExcept : Except Error α → Run α
  | .ok a => pure a
  | .error e => throw e

/-- The outcome of a run as a value. -/
def attempt (x : Run α) : Run (Except Error α) := ExceptT.mk (x.run >>= fun r => pure (.ok r))

/-- Runs, and if it fails reports another failure with the first as its reason. -/
def explain (cause : Cause) (path : Path) (x : Run α) : Run α :=
  ExceptT.mk (x.run >>= fun r => pure (r.mapError (Error.causedBy cause path)))

def store : Run Store := return (← get).store

def modifyStore (f : Store → Store) : Run Unit :=
  modify fun s => { s with store := f s.store }

/-- Makes something in the store. -/
def make {α : Type} (f : Store → α × Store) : Run α :=
  modifyGet fun s => let (a, store) := f s.store; (a, { s with store })

def record (e : Event) : Run Unit := modify fun s => { s with log := s.log.push e }

/-- The number by which the session knows an environment. -/
def knownEnv (id : FrameId) : Run Nat :=
  modifyGet fun s =>
    let (i, envs) := internIn s.known.envs id
    (i, { s with known := { s.known with envs } })

/-- The number by which the session knows a promise. -/
def knownPromise (id : PromiseId) : Run Nat :=
  modifyGet fun s =>
    let (i, promises) := internIn s.known.promises id
    (i, { s with known := { s.known with promises } })

/-- The number by which the session knows a calling context. -/
def knownContext (id : ContextId) : Run Nat :=
  modifyGet fun s =>
    let (i, contexts) := internIn s.known.contexts id
    (i, { s with known := { s.known with contexts } })

end Run

end Quotation
