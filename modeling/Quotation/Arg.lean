/-!
# Arguments

Calls, argument lists, lists of values and argument tails are all sequences of
things that may carry a name. `Arg α` is one entry of such a sequence.
-/

namespace Quotation

/-- A value together with the name it is passed under, if any. The empty name is
a name; an absent one is `none`. -/
structure Arg (α : Type) where
  name : Option String
  value : α
deriving DecidableEq, Inhabited

namespace Arg

variable {α β : Type}

def unnamed (value : α) : Arg α := ⟨none, value⟩

def named (name : String) (value : α) : Arg α := ⟨some name, value⟩

/-- Changes the value and keeps the name. -/
def map (f : α → β) (a : Arg α) : Arg β := ⟨a.name, f a.value⟩

@[simp] theorem name_map (f : α → β) (a : Arg α) : (a.map f).name = a.name := rfl

@[simp] theorem value_map (f : α → β) (a : Arg α) : (a.map f).value = f a.value := rfl

/-- Whether the entry carries the given name. -/
def isNamed (a : Arg α) (name : String) : Bool := a.name == some name

end Arg

end Quotation
