import Quotation.Number.Double
/-!
# Numbers

A number is a 64-bit integer or a double. Arithmetic on two integers is exact or
fails; as soon as a double takes part both operands are doubles, and a result
that is not finite counts as a failure. Equality never identifies an integer
with a double; the order does, after rounding the integer to a double.
-/

namespace Quotation

inductive Number where
  | int (n : Int64)
  | float (d : Double)
deriving DecidableEq, Inhabited

namespace Number

/-- The integer as a number, if 64 bits hold it. -/
def ofInt? (i : Int) : Option Number :=
  if Int64.minValue.toInt ≤ i ∧ i ≤ Int64.maxValue.toInt then some (.int (Int64.ofInt i))
  else none

/-- The double as a number, if it is finite. -/
def ofDouble? (d : Double) : Option Number :=
  if d.isFinite then some (.float d) else none

def isInt : Number → Bool
  | int _ => true
  | float _ => false

def isFloat : Number → Bool
  | int _ => false
  | float _ => true

def toInt? : Number → Option Int64
  | int n => some n
  | float _ => none

/-- The value as a double, an integer being rounded to the nearest one. -/
def toDouble : Number → Double
  | int n => .ofInt n.toInt
  | float d => d

/-! ## Arithmetic that can fail -/

/-- Applies an operation: exactly to two integers, else to two doubles. -/
def arith? (onInts : Int → Int → Int) (onDoubles : Double → Double → Double) :
    Number → Number → Option Number
  | int a, int b => ofInt? (onInts a.toInt b.toInt)
  | a, b => ofDouble? (onDoubles a.toDouble b.toDouble)

def add? : Number → Number → Option Number := arith? (· + ·) (· + ·)

def sub? : Number → Number → Option Number := arith? (· - ·) (· - ·)

def mul? : Number → Number → Option Number := arith? (· * ·) (· * ·)

/-- The quotient, always a double. There is none by a zero of either kind. -/
def div? (a b : Number) : Option Number :=
  if b.toDouble.isZero then none else ofDouble? (a.toDouble / b.toDouble)

def neg? : Number → Option Number
  | int n => ofInt? (-n.toInt)
  | float d => ofDouble? (-d)

/-! ## Order -/

/-- Two integers are compared exactly, all else as doubles. A NaN is in no order
with anything. -/
def compare? : Number → Number → Option Ordering
  | int a, int b => some (compare a.toInt b.toInt)
  | a, b => a.toDouble.compare? b.toDouble

def lt (a b : Number) : Bool := a.compare? b == some .lt

def le (a b : Number) : Bool := a.compare? b == some .lt || a.compare? b == some .eq

/-- Below zero as a double. -/
def isBelowZero (a : Number) : Bool := a.toDouble.isBelowZero

end Number

end Quotation
