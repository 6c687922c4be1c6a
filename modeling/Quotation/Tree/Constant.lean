import Quotation.Number
/-!
# Constants

The atomic literals of expressions. They are also the scalar values.
-/

namespace Quotation

inductive Constant where
  | null
  | bool (b : Bool)
  | number (n : Number)
  | string (s : String)
deriving DecidableEq, Inhabited

namespace Constant

def isNull : Constant → Bool
  | null => true
  | _ => false

def bool? : Constant → Option Bool
  | bool b => some b
  | _ => none

def number? : Constant → Option Number
  | number n => some n
  | _ => none

def string? : Constant → Option String
  | string s => some s
  | _ => none

end Constant

end Quotation
