/-!
# Doubles

A double is its bit pattern: two doubles are equal when their bits are, so a NaN
equals itself and the two zeros differ. Sign, class, order and the conversions
into doubles are read off the bits in exact arithmetic; the four operations
round once, as binary64 demands.
-/

namespace Quotation

/-- A binary64 value, as its bits. -/
structure Double where
  bits : UInt64
deriving DecidableEq, Inhabited

namespace Double

/-- The bit that holds the sign. -/
def signMask : UInt64 := 0x8000000000000000

/-- The magnitude bits of the infinities. All larger ones are NaNs. -/
def infinityMagnitude : Nat := 0x7FF0000000000000

/-- The bits without the sign. Among non-negative doubles they are ordered as the
values are. -/
def magnitude (d : Double) : Nat := (d.bits &&& 0x7FFFFFFFFFFFFFFF).toNat

def isNegative (d : Double) : Bool := d.bits &&& signMask != 0

def isFinite (d : Double) : Bool := d.magnitude < infinityMagnitude

def isNaN (d : Double) : Bool := infinityMagnitude < d.magnitude

/-- Either of the two zeros. -/
def isZero (d : Double) : Bool := d.magnitude == 0

/-! ## Order -/

/-- A number ordered as the value is; both zeros have the rank 0. -/
def rank (d : Double) : Int := if d.isNegative then -(d.magnitude : Int) else d.magnitude

/-- The order of two doubles. A NaN is in no order with anything. -/
def compare? (a b : Double) : Option Ordering :=
  if a.isNaN || b.isNaN then none else some (compare a.rank b.rank)

/-- Below zero. Neither zero is, nor a NaN. -/
def isBelowZero (d : Double) : Bool := !d.isNaN && d.rank < 0

/-! ## Conversions -/

/-- The quotient `m / 2 ^ s` rounded to the nearest natural number, a half to the
even neighbour. -/
def roundShift (m s : Nat) : Nat :=
  let unit := Nat.pow 2 s
  let q := m / unit
  match compare (2 * (m % unit)) unit with
  | .lt => q
  | .gt => q + 1
  | .eq => if q % 2 == 0 then q else q + 1

/-- The magnitude bits of the double nearest to `m * 2 ^ (e - 1074)`, for values
in the normal range. The significand is rounded to 53 bits; a carry out of it
raises the exponent, as the encoding is consecutive. -/
def encodeScaled (m e : Nat) : Nat :=
  if m == 0 then 0
  else
    let top := m.log2
    let significand := if top ≤ 52 then m * Nat.pow 2 (52 - top) else roundShift m (top - 52)
    (e + top - 52) * Nat.pow 2 52 + significand

/-- Attaches a sign to magnitude bits. -/
def ofMagnitude (negative : Bool) (magnitude : Nat) : Double :=
  ⟨if negative then magnitude.toUInt64 ||| signMask else magnitude.toUInt64⟩

/-- The double nearest to an integer of at most 64 bits. -/
def ofInt (i : Int) : Double := ofMagnitude (i < 0) (encodeScaled i.natAbs 1074)

/-- The double of the same value as a binary32 pattern. A NaN keeps its payload
and becomes quiet. -/
def ofSingle (bits : UInt32) : Double :=
  let exponent := ((bits >>> 23) &&& 0xFF).toNat
  let fraction := (bits &&& 0x7FFFFF).toNat
  ofMagnitude (bits &&& 0x80000000 != 0) <|
    if exponent == 0xFF then
      if fraction == 0 then infinityMagnitude
      else infinityMagnitude ||| Nat.pow 2 51 ||| fraction * Nat.pow 2 29
    else if exponent == 0 then encodeScaled fraction 925
    else encodeScaled (Nat.pow 2 23 + fraction) (exponent + 924)

/-! ## Arithmetic -/

def neg (d : Double) : Double := ⟨d.bits ^^^ signMask⟩

def toFloat (d : Double) : Float := Float.ofBits d.bits

def ofFloat (x : Float) : Double := ⟨x.toBits⟩

instance : Neg Double := ⟨neg⟩
instance : Add Double := ⟨fun a b => ofFloat (a.toFloat + b.toFloat)⟩
instance : Sub Double := ⟨fun a b => ofFloat (a.toFloat - b.toFloat)⟩
instance : Mul Double := ⟨fun a b => ofFloat (a.toFloat * b.toFloat)⟩
instance : Div Double := ⟨fun a b => ofFloat (a.toFloat / b.toFloat)⟩

example : (ofInt 1).bits = 0x3FF0000000000000 ∧ (ofInt 9007199254740993).bits = 0x4340000000000000 ∧
    (ofInt (-9223372036854775808)).bits = 0xC3E0000000000000 := by decide

example : (ofSingle 0x3F800000).bits = 0x3FF0000000000000 ∧ (ofSingle 1).bits = 0x36A0000000000000 ∧
    (ofSingle 0xFF800000).bits = 0xFFF0000000000000 := by decide

end Double

end Quotation
