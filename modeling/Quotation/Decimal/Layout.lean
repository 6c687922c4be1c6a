import Quotation.Decimal.Shortest
import Quotation.Number
/-!
# How numbers are laid out

Digits come from `Decimal.Shortest`; a `Layout` says how they are set: where the
plain form ends and the exponent form begins, whether an integral value keeps a
fraction, and which of two equally near decimals is taken.
-/

namespace Quotation

open Decimal

/-- The decisions of one way of writing doubles. -/
structure Layout where
  /-- Whether a value is written without an exponent, by the exponent of its
  leading digit. -/
  plain : Int → Bool
  /-- Whether an integral value written without an exponent ends in `.0`. -/
  pointZero : Bool
  tie : Tie

namespace Layout

/-- Decimal digits of a natural number. -/
def digits (n : Nat) : List Char := Nat.toDigits 10 n

def integer (i : Int) : List Char :=
  if i < 0 then '-' :: digits i.natAbs else digits i.natAbs

/-- The digits with the point set as the exponent asks, without an exponent. -/
def setPlain (layout : Layout) (ds : List Char) (exp : Int) : List Char :=
  if 0 ≤ exp then
    ds ++ List.replicate exp.toNat '0' ++ (if layout.pointZero then ['.', '0'] else [])
  else
    let places := (-exp).toNat
    if ds.length ≤ places then
      '0' :: '.' :: (List.replicate (places - ds.length) '0' ++ ds)
    else ds.take (ds.length - places) ++ '.' :: ds.drop (ds.length - places)

/-- One digit before the point, the others after it, and the exponent. -/
def setExponent (ds : List Char) (exp : Int) : List Char :=
  (match ds with
    | d :: r@(_ :: _) => d :: '.' :: r
    | ds => ds) ++ 'e' :: integer exp

/-- A positive finite double. -/
def positive (layout : Layout) (magnitude : Nat) : List Char :=
  let d := (Binary.ofMagnitude magnitude).shortest layout.tie
  let ds := digits d.coeff
  let leading : Int := d.exp + ds.length - 1
  if layout.plain leading then layout.setPlain ds d.exp else setExponent ds leading

/-- Any double. Zeros have a sign, NaNs have none. -/
def double (layout : Layout) (d : Double) : List Char :=
  if d.isNaN then "NaN".toList
  else
    (if d.isNegative then ['-'] else []) ++
      if d.isZero then '0' :: (if layout.pointZero then ['.', '0'] else [])
      else if d.isFinite then layout.positive d.magnitude
      else "inf".toList

/-- Numbers in printed expressions: exponents from 16 on and from -6 down. -/
def printed : Layout := ⟨fun e => -5 ≤ e && e ≤ 15, false, .toEven⟩

/-- Numbers in messages and in values shown as text: never an exponent. -/
def message : Layout := ⟨fun _ => true, false, .up⟩

/-- Numbers in diagnostic text: a fraction or an exponent shows that it is a
double. -/
def diagnostic : Layout := ⟨fun e => -4 ≤ e && e ≤ 15, true, .up⟩

end Layout

namespace Number

/-- The number in the given layout. -/
def text (layout : Layout) : Number → List Char
  | int n => Layout.integer n.toInt
  | float d => layout.double d

/-- The number as messages show it. -/
def display (n : Number) : String := String.ofList (n.text .message)

/-- The number with its kind. -/
def diagnostic : Number → String
  | int n => "Int(" ++ String.ofList (Layout.integer n.toInt) ++ ")"
  | float d => "Float(" ++ String.ofList (Layout.diagnostic.double d) ++ ")"

end Number

end Quotation
