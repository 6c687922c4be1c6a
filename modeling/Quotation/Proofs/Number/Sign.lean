import Quotation.Number
import Mathlib.Data.Nat.Bitwise
/-!
# Signs of integers as doubles

The printer tests the sign of a number on the double nearest to it. An integer is below zero
exactly when this double is (`Number.isBelowZero_int_iff`): the code of a magnitude of at most 64
bits is not zero unless the integer is, and stays clear of the NaNs and of the sign bit.
-/

namespace Quotation

namespace Double

/-! ## Sign and magnitude in the bits -/

theorem magnitude_eq (d : Double) : d.magnitude = d.bits.toNat % 2 ^ 63 := by
  have hmask : (0x7FFFFFFFFFFFFFFF : UInt64).toNat = 2 ^ 63 - 1 := rfl
  rw [magnitude, UInt64.toNat_and, hmask, Nat.and_two_pow_sub_one_eq_mod]

theorem isNegative_eq (d : Double) : d.isNegative = d.bits.toNat.testBit 63 := by
  have hand : (d.bits &&& signMask).toNat = (d.bits.toNat.testBit 63).toNat * 2 ^ 63 := by
    rw [UInt64.toNat_and]
    show _ &&& 2 ^ 63 = _
    rw [Nat.and_two_pow]
  rw [isNegative, Bool.eq_iff_iff, bne_iff_ne, ne_eq, ← UInt64.toNat_inj, hand]
  cases d.bits.toNat.testBit 63 <;> simp

/-! ## Sign and magnitude apart -/

theorem toNat_bits_ofMagnitude (negative : Bool) {m : Nat} (h : m < 2 ^ 63) :
    (ofMagnitude negative m).bits.toNat = if negative then m ||| 2 ^ 63 else m := by
  have hm : m.toUInt64.toNat = m := by rw [Nat.toUInt64, UInt64.toNat_ofNat']; omega
  cases negative with
  | false => simp [ofMagnitude, hm]
  | true => simp [ofMagnitude, hm, signMask, UInt64.toNat_or]

theorem magnitude_ofMagnitude (negative : Bool) {m : Nat} (h : m < 2 ^ 63) :
    (ofMagnitude negative m).magnitude = m := by
  rw [magnitude_eq, toNat_bits_ofMagnitude negative h]
  cases negative with
  | false => exact Nat.mod_eq_of_lt h
  | true => rw [if_pos rfl, Nat.or_mod_two_pow, Nat.mod_self, Nat.or_zero, Nat.mod_eq_of_lt h]

theorem isNegative_ofMagnitude (negative : Bool) {m : Nat} (h : m < 2 ^ 63) :
    (ofMagnitude negative m).isNegative = negative := by
  rw [isNegative_eq, toNat_bits_ofMagnitude negative h]
  cases negative with
  | false => exact Nat.testBit_lt_two_pow h
  | true => rw [if_pos rfl, Nat.testBit_or, Nat.testBit_two_pow_self, Bool.or_true]

/-! ## Rounding -/

/-- A quotient is rounded down or up, to the nearer side, and in the middle to the even one. -/
theorem roundShift_spec (m s : Nat) :
    (roundShift m s = m / 2 ^ s ∧ 2 * (m % 2 ^ s) ≤ 2 ^ s ∨ roundShift m s = m / 2 ^ s + 1 ∧ 2 ^ s ≤ 2 * (m % 2 ^ s)) ∧
      (2 * (m % 2 ^ s) = 2 ^ s → roundShift m s % 2 = 0) := by
  unfold roundShift
  simp only [Nat.pow_eq]
  split
  · rename_i hcompare
    have hlt := Nat.compare_eq_lt.1 hcompare
    exact ⟨.inl ⟨rfl, Nat.le_of_lt hlt⟩, fun heq => absurd heq (Nat.ne_of_lt hlt)⟩
  · rename_i hcompare
    have hgt := Nat.compare_eq_gt.1 hcompare
    exact ⟨.inr ⟨rfl, Nat.le_of_lt hgt⟩, fun heq => absurd heq (Nat.ne_of_gt hgt)⟩
  · rename_i hcompare
    have heq := Nat.compare_eq_eq.1 hcompare
    split
    · rename_i heven
      exact ⟨.inl ⟨rfl, Nat.le_of_eq heq⟩, fun _ => by simpa using heven⟩
    · rename_i hodd
      have hodd : m / 2 ^ s % 2 ≠ 0 := by simpa using hodd
      exact ⟨.inr ⟨rfl, Nat.le_of_eq heq.symm⟩, fun _ => by omega⟩

/-- The 53 bits that are kept of a number. A carry may come out of them. -/
def significand (m : Nat) : Nat := if m.log2 ≤ 52 then m * 2 ^ (52 - m.log2) else roundShift m (m.log2 - 52)

variable {m : Nat}

theorem encodeScaled_eq_significand (hm : m ≠ 0) (e : Nat) :
    encodeScaled m e = (e + m.log2 - 52) * 2 ^ 52 + significand m := by
  rw [encodeScaled, if_neg (by simpa using hm), significand]
  rfl

theorem le_div_two_pow_log2 (hm : m ≠ 0) (h : 52 < m.log2) :
    2 ^ 52 ≤ m / 2 ^ (m.log2 - 52) ∧ m / 2 ^ (m.log2 - 52) < 2 ^ 53 := by
  have hpos : 0 < 2 ^ (m.log2 - 52) := Nat.two_pow_pos _
  constructor
  · rw [Nat.le_div_iff_mul_le hpos, ← Nat.pow_add, Nat.add_sub_cancel' (by omega)]
    exact Nat.log2_self_le hm
  · rw [Nat.div_lt_iff_lt_mul hpos, ← Nat.pow_add, show 53 + (m.log2 - 52) = m.log2 + 1 by omega]
    exact Nat.lt_log2_self

/-- Up to 53 bits there is nothing to round, and no carry. -/
theorem significand_lt (h : m.log2 ≤ 52) : significand m < 2 ^ 53 := by
  calc significand m = m * 2 ^ (52 - m.log2) := if_pos h
    _ < 2 ^ (m.log2 + 1) * 2 ^ (52 - m.log2) := Nat.mul_lt_mul_of_pos_right Nat.lt_log2_self (Nat.two_pow_pos _)
    _ = 2 ^ 53 := by
      rw [← Nat.pow_add]
      congr 1
      omega

theorem significand_bounds (hm : m ≠ 0) : 2 ^ 52 ≤ significand m ∧ significand m ≤ 2 ^ 53 := by
  rcases Nat.lt_or_ge 52 m.log2 with hbits | hbits
  · have hquotient := le_div_two_pow_log2 hm hbits
    have hrounded := roundShift_spec m (m.log2 - 52)
    rw [significand, if_neg (Nat.not_le.2 hbits)]
    omega
  · refine ⟨?_, Nat.le_of_lt (significand_lt hbits)⟩
    calc 2 ^ 52 = 2 ^ m.log2 * 2 ^ (52 - m.log2) := by rw [← Nat.pow_add, Nat.add_sub_cancel' hbits]
      _ ≤ m * 2 ^ (52 - m.log2) := Nat.mul_le_mul_right _ (Nat.log2_self_le hm)
      _ = significand m := (if_pos hbits).symm

/-! ## Integers -/

/-- Rounding to 53 bits carries at most into the exponent, which has room for it. -/
theorem encodeScaled_lt (h : m < 2 ^ 64) : encodeScaled m 1074 < infinityMagnitude := by
  by_cases hm : m = 0
  · subst hm
    decide
  · have htop : m.log2 < 64 := (Nat.log2_lt hm).2 h
    have hsignificand := (significand_bounds hm).2
    rw [encodeScaled_eq_significand hm, infinityMagnitude]
    omega

/-- The exponent of an integer that is not zero is not zero. -/
theorem encodeScaled_ne_zero (hm : m ≠ 0) : encodeScaled m 1074 ≠ 0 := by
  have hsignificand := (significand_bounds hm).1
  rw [encodeScaled_eq_significand hm]
  omega

/-! ## Below zero -/

theorem isBelowZero_iff (d : Double) :
    d.isBelowZero = true ↔ d.isNaN = false ∧ d.isNegative = true ∧ d.magnitude ≠ 0 := by
  unfold isBelowZero rank
  cases d.isNegative with
  | false => simp
  | true =>
    simp only [if_true, Bool.and_eq_true, Bool.not_eq_true', decide_eq_true_eq, true_and]
    exact and_congr_right fun _ => by omega

/-- An integer is on the same side of zero as the double nearest to it. -/
theorem isBelowZero_ofInt {i : Int} (h : i.natAbs < 2 ^ 64) : (ofInt i).isBelowZero = true ↔ i < 0 := by
  have hcode := encodeScaled_lt h
  have hbits : encodeScaled i.natAbs 1074 < 2 ^ 63 := Nat.lt_trans hcode (by decide)
  have hnan : (ofInt i).isNaN = false := by
    rw [isNaN, ofInt, magnitude_ofMagnitude _ hbits]
    exact decide_eq_false (Nat.not_lt.2 (Nat.le_of_lt hcode))
  rw [isBelowZero_iff, hnan, ofInt, isNegative_ofMagnitude _ hbits, magnitude_ofMagnitude _ hbits, decide_eq_true_eq]
  exact ⟨fun h => h.2.1, fun h => ⟨rfl, h, encodeScaled_ne_zero (by omega)⟩⟩

end Double

theorem Number.isBelowZero_int_iff {n : Int64} : (Number.int n).isBelowZero = true ↔ n.toInt < 0 :=
  Double.isBelowZero_ofInt (by have := n.le_toInt; have := n.toInt_lt; omega)

theorem Number.isBelowZero_int {n : Int64} (h : 0 ≤ n.toInt) : (Number.int n).isBelowZero = false := by
  rw [Bool.eq_false_iff]
  exact fun hbelow => Int.not_lt.2 h (Number.isBelowZero_int_iff.1 hbelow)

end Quotation
