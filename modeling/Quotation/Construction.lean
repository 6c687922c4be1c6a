import Quotation.Error
/-!
# Checked constructions

Nodes that programs put together themselves: a symbol needs a name, and the head
of a call has to be a symbol with a name or a call.
-/

namespace Quotation.Node

/-- The symbol of a name that is not empty. -/
def ofName? (name : String) : Except Error Node :=
  if name.isEmpty then .error (.of .invalidSymbol) else .ok (symbol name)

/-- Fails at a place unless the node there can be the head of a call. -/
def requireHead (n : Node) (path : Path) : Except Error Unit :=
  if n.isHead then .ok () else .error (.atPath (.invalidHead n.kind) path)

/-- A call of something that can be called. -/
def checkedCall (head : Node) (args : List (Arg Node)) : Except Error Node := do
  head.requireHead []
  return call head args

theorem requireHead_eq_ok_iff {n : Node} {path : Path} :
    n.requireHead path = .ok () ↔ n.isHead := by
  by_cases h : n.isHead <;> simp [requireHead, h]

theorem ofName?_eq_ok_iff {name : String} {n : Node} :
    ofName? name = .ok n ↔ name ≠ "" ∧ n = symbol name := by
  by_cases h : name = ""
  · simp [ofName?, h]
  · simpa [ofName?, h] using eq_comm

end Quotation.Node
