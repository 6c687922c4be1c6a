/-!
# Operators

The table of operators that are written between or in front of their operands,
with the levels at which they bind: the higher, the tighter.
-/

namespace Quotation.Print

/-- The side on which an operator may take an operand of its own level without a
group. -/
inductive Side where
  | left
  | right
deriving DecidableEq

/-- An operator written between its operands. -/
structure Operator where
  level : Nat
  /-- None for comparisons, which do not chain. -/
  side : Option Side
  /-- Whether there are blanks around it. -/
  spaced : Bool
deriving DecidableEq

/-- The level of a minus sign in front of its operand, and of a negative number. -/
def negationLevel : Nat := 12

/-- The level of forms that reach as far to the right as they can. -/
def openLevel : Nat := 1

/-- Operators of two operands, from the loosest to the tightest. -/
def binaryTable : List (String × Operator) :=
  group ["<-", "<<-", ":=", "="] ⟨2, some .right, true⟩ ++
  group ["~"] ⟨3, some .left, true⟩ ++
  group ["||", "|"] ⟨4, some .left, true⟩ ++
  group ["&&", "&"] ⟨5, some .left, true⟩ ++
  group ["==", "!=", "<", "<=", ">", ">="] ⟨7, none, true⟩ ++
  group ["+", "-"] ⟨8, some .left, true⟩ ++
  group ["*", "/"] ⟨9, some .left, true⟩ ++
  group ["|>"] ⟨10, some .left, true⟩ ++
  group [":"] ⟨11, some .left, false⟩ ++
  group ["^"] ⟨13, some .right, false⟩ ++
  group ["$", "@"] ⟨14, some .left, false⟩
where
  group (names : List String) (op : Operator) : List (String × Operator) :=
    names.map fun name => (name, op)

/-- A name between percent signs, which is an operator defined by the user. -/
def isPercentName (name : String) : Bool :=
  match name.toList with
  | '%' :: rest => rest.getLast? == some '%'
  | _ => false

/-- The operator of two operands with this name. -/
def binaryOperator? (name : String) : Option Operator :=
  match binaryTable.lookup name with
  | some op => some op
  | none => if isPercentName name then some ⟨10, some .left, true⟩ else none

/-- Operators of one operand, with their levels. -/
def unaryTable : List (String × Nat) :=
  [("-", negationLevel), ("+", negationLevel), ("!", 6), ("!!", 6), ("!!!", 6), ("~", 3)]

/-- The level of the operator of one operand with this name. -/
def unaryLevel? (name : String) : Option Nat := unaryTable.lookup name

end Quotation.Print
