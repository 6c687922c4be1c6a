/-!
# Shortest decimals

The decimal that is written for a double: of all decimals that read back as the
double one with the fewest digits, and of those the nearest to its value. Which
of two equally near ones is written is left to the caller.

A finite positive double is a natural number times a power of two, and the
decimals that read back as it form an interval around it, from halfway to the
neighbour below to halfway to the neighbour above. All tests are exact, on
natural numbers.
-/

namespace Quotation

/-- The value `coeff * 10 ^ exp`. -/
structure Decimal where
  coeff : Nat
  exp : Int
deriving DecidableEq, Repr, Inhabited

namespace Decimal

/-- Which of two equally near candidates is taken. -/
inductive Tie where
  /-- the one with an even last digit -/
  | toEven
  /-- the one farther from zero -/
  | up
deriving DecidableEq

/-- A finite positive double, `significand * 2 ^ exp`. -/
structure Binary where
  significand : Nat
  exp : Int
  /-- The neighbour below is half as far away as the neighbour above: the
  significand is the least of its exponent. -/
  closeBelow : Bool

namespace Binary

/-- Reads the magnitude bits of a finite double. -/
def ofMagnitude (magnitude : Nat) : Binary :=
  let exponent : Nat := magnitude / Nat.pow 2 52
  let fraction : Nat := magnitude % Nat.pow 2 52
  if exponent == 0 then ⟨fraction, -1074, false⟩
  else ⟨Nat.pow 2 52 + fraction, (exponent : Int) - 1075, fraction == 0 && exponent > 1⟩

/-- Compares `a * 10 ^ i` with `b * 2 ^ j`. -/
def compareScaled (a : Nat) (i : Int) (b : Nat) (j : Int) : Ordering :=
  compare (a * Nat.pow 10 i.toNat * Nat.pow 2 (-j).toNat)
    (b * Nat.pow 2 j.toNat * Nat.pow 10 (-i).toNat)

/-- Whether a decimal lies among the reals that are rounded to `x`. The ends of
the interval do when the significand is even. -/
def readsBack (x : Binary) (d : Decimal) : Bool :=
  let lower := compareScaled d.coeff d.exp
    (4 * x.significand - if x.closeBelow then 1 else 2) (x.exp - 2)
  let upper := compareScaled d.coeff d.exp (4 * x.significand + 2) (x.exp - 2)
  let ends := x.significand % 2 == 0
  (lower == .gt || ends && lower == .eq) && (upper == .lt || ends && upper == .eq)

/-- Whether `x < 10 ^ k`. -/
def below (x : Binary) (k : Int) : Bool := compareScaled 1 k x.significand x.exp == .gt

/-- Raises `k` until `x < 10 ^ k`, at most as often as told. -/
def raise (x : Binary) : Nat → Int → Int
  | 0, k => k
  | n + 1, k => if x.below k then k else raise x n (k + 1)

/-- The least `k` with `x < 10 ^ k`. The start is found from the binary exponent,
as `2 ^ 10` is just above `10 ^ 3`, and lies at most a few steps below. -/
def scale (x : Binary) : Int :=
  let log2 : Int := x.significand.log2 + x.exp
  raise x 12 (log2 * 30102 / 100000 - 1)

/-- The two decimals of exponent `e` around `x` are `f` and `f + 1` times
`10 ^ e`; this is `f`, and how `x` compares with the middle between them. -/
def floorAt (x : Binary) (e : Int) : Nat × Ordering :=
  let num := x.significand * Nat.pow 2 x.exp.toNat * Nat.pow 10 (-e).toNat
  let den := Nat.pow 2 (-x.exp).toNat * Nat.pow 10 e.toNat
  (num / den, compare (2 * (num % den)) den)

/-- The decimal with exponent `e` nearest to `x` among those that read back. -/
def candidate? (x : Binary) (tie : Tie) (e : Int) : Option Decimal :=
  let (f, side) := x.floorAt e
  let lower : Decimal := ⟨f, e⟩
  let upper : Decimal := ⟨f + 1, e⟩
  match x.readsBack lower, x.readsBack upper with
  | false, false => none
  | true, false => some lower
  | false, true => some upper
  | true, true =>
    match side, tie with
    | .lt, _ => some lower
    | .gt, _ => some upper
    | .eq, .up => some upper
    | .eq, .toEven => some (if f % 2 == 0 then lower else upper)

/-- The value of `x` with all its digits. -/
def exact (x : Binary) : Decimal :=
  if 0 ≤ x.exp then ⟨x.significand * Nat.pow 2 x.exp.toNat, 0⟩
  else ⟨x.significand * Nat.pow 5 (-x.exp).toNat, x.exp⟩

end Binary

/-- Moves the zeros that end the coefficient, at most as many as told, into the
exponent. -/
def stripZeros : Nat → Decimal → Decimal
  | 0, d => d
  | n + 1, d => if d.coeff % 10 == 0 then stripZeros n ⟨d.coeff / 10, d.exp + 1⟩ else d

/-- The number of digits tried. Seventeen tell any two doubles apart. -/
def maxDigits : Nat := 17

/-- The decimal written for `x`: the first hit on grids that grow finer digit by
digit, from the leading digit on. -/
def Binary.shortest (x : Binary) (tie : Tie) : Decimal :=
  let k := x.scale
  let found := (List.range maxDigits).findSome? fun (n : Nat) =>
    x.candidate? tie (k - 1 - (n : Int))
  (found.getD x.exact).stripZeros (maxDigits + 1)

example : (Binary.ofMagnitude 0x3FB999999999999A).shortest .up = ⟨1, -1⟩ := by decide +kernel
example : (Binary.ofMagnitude 1).shortest .toEven = ⟨5, -324⟩ := by decide +kernel
example : (Binary.ofMagnitude 0x3E60000000000000).shortest .toEven = ⟨29802322387695312, -24⟩ := by
  decide +kernel
example : (Binary.ofMagnitude 0x3E60000000000000).shortest .up = ⟨29802322387695313, -24⟩ := by
  decide +kernel

end Decimal

end Quotation
