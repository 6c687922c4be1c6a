import Quotation.Proofs.Number.Sign
/-!
# Widening binary32

A finite binary32 value is a double of the same sign and the same value
(`Double.ofSingle_of_isFinite`), the subnormal ones included; the infinities and NaNs are not finite
doubles (`Double.isFinite_ofSingle`). Values are counted in units of the smallest subnormal
of their format, of which both formats have whole numbers only.
-/

namespace Quotation

/-! ## Binary32 patterns -/

namespace Single

def exponent (bits : UInt32) : Nat := ((bits >>> 23) &&& 0xFF).toNat

def fraction (bits : UInt32) : Nat := (bits &&& 0x7FFFFF).toNat

def isNegative (bits : UInt32) : Bool := bits &&& 0x80000000 != 0

/-- All exponents but the largest are those of numbers. -/
def isFinite (bits : UInt32) : Bool := exponent bits != 0xFF

/-- How many times a finite value holds `2 ^ (-149)`. -/
def units (bits : UInt32) : Nat :=
  if exponent bits = 0 then fraction bits else (2 ^ 23 + fraction bits) * 2 ^ (exponent bits - 1)

theorem exponent_le (bits : UInt32) : exponent bits ≤ 0xFF := by
  rw [exponent, UInt32.toNat_and]
  exact Nat.and_le_right

theorem fraction_lt (bits : UInt32) : fraction bits < 2 ^ 23 := by
  rw [fraction, UInt32.toNat_and]
  exact Nat.lt_succ_of_le Nat.and_le_right

end Single

namespace Double

/-- How many times a finite double holds `2 ^ (-1074)`. -/
def units (d : Double) : Nat :=
  if d.magnitude / 2 ^ 52 = 0 then d.magnitude % 2 ^ 52
  else (2 ^ 52 + d.magnitude % 2 ^ 52) * 2 ^ (d.magnitude / 2 ^ 52 - 1)

/-- The value of a code whose significand may have carried. -/
theorem units_of_code {d : Double} {exponent g : Nat} (h : d.magnitude = exponent * 2 ^ 52 + g) (hlow : 2 ^ 52 ≤ g)
    (hhigh : g ≤ 2 ^ 53) : d.units = g * 2 ^ exponent := by
  rcases Nat.lt_or_eq_of_le hhigh with hlt | rfl
  · have hfield : d.magnitude / 2 ^ 52 = exponent + 1 := by omega
    have hrest : d.magnitude % 2 ^ 52 = g - 2 ^ 52 := by omega
    rw [units, hfield, hrest, if_neg (Nat.succ_ne_zero _), Nat.add_sub_cancel' hlow, Nat.add_sub_cancel]
  · have hfield : d.magnitude / 2 ^ 52 = exponent + 2 := by omega
    have hrest : d.magnitude % 2 ^ 52 = 0 := by omega
    rw [units, hfield, hrest, if_neg (Nat.succ_ne_zero _), Nat.add_zero, ← Nat.pow_add, ← Nat.pow_add]
    congr 1
    omega

/-! ## Codes of values that need no rounding -/

/-- The double of a natural number of units, if 53 bits and the exponents hold it. -/
theorem ofMagnitude_encodeScaled (negative : Bool) {m e : Nat} (hbits : m < 2 ^ 53) (he : 52 ≤ e)
    (hmax : e + m.log2 < 2098) :
    (ofMagnitude negative (encodeScaled m e)).isNegative = negative ∧
      (ofMagnitude negative (encodeScaled m e)).isFinite = true ∧
      (ofMagnitude negative (encodeScaled m e)).units = m * 2 ^ e := by
  by_cases hm : m = 0
  · subst hm
    rw [show encodeScaled 0 e = 0 from rfl, isNegative_ofMagnitude _ (by decide), isFinite, units,
      magnitude_ofMagnitude _ (by decide)]
    simp [infinityMagnitude]
  · have htop : m.log2 ≤ 52 := Nat.le_of_lt_succ ((Nat.log2_lt hm).2 hbits)
    have hcode := encodeScaled_eq_significand hm e
    have hlow := (significand_bounds hm).1
    have hhigh := significand_lt htop
    have hlt : encodeScaled m e < infinityMagnitude := by
      rw [hcode, infinityMagnitude]
      omega
    have hmagnitude := magnitude_ofMagnitude negative (Nat.lt_trans hlt (by decide))
    refine ⟨isNegative_ofMagnitude _ (Nat.lt_trans hlt (by decide)), ?_, ?_⟩
    · rw [isFinite, hmagnitude]
      exact decide_eq_true hlt
    · rw [units_of_code (hmagnitude.trans hcode) hlow (Nat.le_of_lt hhigh), significand, if_pos htop, Nat.mul_assoc,
        ← Nat.pow_add]
      congr 2
      omega

/-! ## Binary32 values as doubles -/

theorem ofSingle_eq (bits : UInt32) :
    ofSingle bits = ofMagnitude (Single.isNegative bits)
      (if Single.exponent bits == 0xFF then
        if Single.fraction bits == 0 then infinityMagnitude
        else infinityMagnitude ||| Nat.pow 2 51 ||| Single.fraction bits * Nat.pow 2 29
      else if Single.exponent bits == 0 then encodeScaled (Single.fraction bits) 925
      else encodeScaled (Nat.pow 2 23 + Single.fraction bits) (Single.exponent bits + 924)) := rfl

/-- A finite binary32 value keeps its sign and its value as a double. -/
theorem ofSingle_of_isFinite {bits : UInt32} (h : Single.isFinite bits = true) :
    (ofSingle bits).isNegative = Single.isNegative bits ∧ (ofSingle bits).isFinite = true ∧
      (ofSingle bits).units = Single.units bits * 2 ^ 925 := by
  have hexponent : Single.exponent bits ≠ 0xFF := by simpa [Single.isFinite] using h
  have hle := Single.exponent_le bits
  have hfraction := Single.fraction_lt bits
  rw [ofSingle_eq, if_neg (by simpa using hexponent)]
  by_cases hzero : Single.exponent bits = 0
  · have htop : (Single.fraction bits).log2 ≤ 23 := by
      by_cases h0 : Single.fraction bits = 0
      · simp [h0]
      · exact Nat.le_of_lt ((Nat.log2_lt h0).2 hfraction)
    rw [if_pos (by simpa using hzero), Single.units, if_pos hzero]
    exact ofMagnitude_encodeScaled _ (by omega) (by omega) (by omega)
  · have htop : (2 ^ 23 + Single.fraction bits).log2 < 24 := (Nat.log2_lt (by omega)).2 (by omega)
    rw [if_neg (by simpa using hzero), Single.units, if_neg hzero, Nat.mul_assoc, ← Nat.pow_add,
      show Single.exponent bits - 1 + 925 = Single.exponent bits + 924 by omega]
    simp only [Nat.pow_eq]
    exact ofMagnitude_encodeScaled _ (by omega) (by omega) (by omega)

theorem isFinite_ofMagnitude_of_le (negative : Bool) {m : Nat} (hlow : infinityMagnitude ≤ m) (h : m < 2 ^ 63) :
    (ofMagnitude negative m).isFinite = false := by
  rw [isFinite, magnitude_ofMagnitude negative h]
  exact decide_eq_false (Nat.not_lt.2 hlow)

/-- The infinities and the NaNs stay what they are. -/
theorem isFinite_ofSingle (bits : UInt32) : (ofSingle bits).isFinite = Single.isFinite bits := by
  cases h : Single.isFinite bits with
  | true => exact (ofSingle_of_isFinite h).2.1
  | false =>
    have hexponent : Single.exponent bits = 0xFF := by simpa [Single.isFinite] using h
    rw [ofSingle_eq, if_pos (by simpa using hexponent)]
    split
    · exact isFinite_ofMagnitude_of_le _ (Nat.le_refl _) (by decide)
    · have hpayload : Single.fraction bits * 2 ^ 29 < 2 ^ 63 := by
        have hfraction := Single.fraction_lt bits
        omega
      refine isFinite_ofMagnitude_of_le _ (Nat.le_trans Nat.left_le_or Nat.left_le_or) ?_
      exact Nat.or_lt_two_pow (by decide) hpayload

end Double

end Quotation
