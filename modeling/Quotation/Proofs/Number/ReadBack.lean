import Mathlib.Algebra.Order.Field.Rat
import Mathlib.Algebra.Order.Field.Power
import Mathlib.Tactic.Ring
import Mathlib.Tactic.Linarith
import Mathlib.Tactic.Positivity
import Quotation.Decimal.Shortest
/-!
# Decimals that read back

The reals that are rounded to a double are an interval around the double. The test whether a decimal
lies among them is exact and on natural numbers; on rationals it says where the value of the decimal
lies (`readsBack_iff`), so that only this value counts, and what lies between decimals that read back
reads back too.
-/

namespace Quotation.Decimal

/-- The value of a decimal. -/
def value (d : Decimal) : ℚ := d.coeff * 10 ^ d.exp

/-- Zeros that end the coefficient do not count. -/
theorem value_stripZeros (n : Nat) (d : Decimal) : (stripZeros n d).value = d.value := by
  induction n generalizing d with
  | zero => rfl
  | succ n ih =>
    rw [stripZeros]
    split
    · rename_i hzero
      have hcoeff : (d.coeff : ℚ) = (d.coeff / 10 : Nat) * 10 := by
        exact_mod_cast (Nat.div_mul_cancel (Nat.dvd_of_mod_eq_zero (by simpa using hzero))).symm
      rw [ih, value, value, hcoeff, zpow_add₀ (by norm_num)]
      ring
    · rfl

/-- A negative power is cancelled by the power that a denominator has of it. -/
theorem zpow_mul_pow_toNat {c : ℚ} (hc : c ≠ 0) (k : Int) : c ^ k * c ^ (-k).toNat = c ^ k.toNat := by
  rw [← zpow_natCast, ← zpow_natCast, ← zpow_add₀ hc]
  congr 1
  omega

namespace Binary

/-- The value of a double. -/
def value (x : Binary) : ℚ := x.significand * 2 ^ x.exp

/-- The sides are scaled by the powers with a negative exponent, and compared as they stand. -/
theorem compareScaled_eq (a : Nat) (i : Int) (b : Nat) (j : Int) :
    compareScaled a i b j = compare ((a : ℚ) * 10 ^ i) (b * 2 ^ j) := by
  have hscale : (0 : ℚ) < 10 ^ (-i).toNat * 2 ^ (-j).toNat := by positivity
  have hleft : ((a * Nat.pow 10 i.toNat * Nat.pow 2 (-j).toNat : Nat) : ℚ) =
      (a : ℚ) * 10 ^ i * (10 ^ (-i).toNat * 2 ^ (-j).toNat) := by
    have := zpow_mul_pow_toNat (c := 10) (by norm_num) i
    push_cast [Nat.pow_eq]
    rw [← this]
    ring
  have hright : ((b * Nat.pow 2 j.toNat * Nat.pow 10 (-i).toNat : Nat) : ℚ) =
      (b : ℚ) * 2 ^ j * (10 ^ (-i).toNat * 2 ^ (-j).toNat) := by
    have := zpow_mul_pow_toNat (c := 2) (by norm_num) j
    push_cast [Nat.pow_eq]
    rw [← this]
    ring
  unfold compareScaled
  rcases lt_trichotomy ((a : ℚ) * 10 ^ i) (b * 2 ^ j) with h | h | h
  · rw [compare_lt_iff_lt.2 h, Nat.compare_eq_lt]
    exact_mod_cast hleft.trans_lt ((mul_lt_mul_of_pos_right h hscale).trans_eq hright.symm)
  · rw [compare_eq_iff_eq.2 h, Nat.compare_eq_eq]
    exact_mod_cast hleft.trans ((congrArg (· * _) h).trans hright.symm)
  · rw [compare_gt_iff_gt.2 h, Nat.compare_eq_gt]
    exact_mod_cast hright.trans_lt ((mul_lt_mul_of_pos_right h hscale).trans_eq hleft.symm)

/-- The middle between a double and its neighbour below. -/
def lower (x : Binary) : ℚ := (4 * x.significand - if x.closeBelow then 1 else 2 : Nat) * 2 ^ (x.exp - 2)

/-- The middle between a double and its neighbour above. -/
def upper (x : Binary) : ℚ := (4 * x.significand + 2 : Nat) * 2 ^ (x.exp - 2)

/-- The ends of the interval are rounded to a double with an even significand. -/
theorem readsBack_iff {x : Binary} {d : Decimal} : x.readsBack d = true ↔
    (x.lower < d.value ∨ x.significand % 2 = 0 ∧ d.value = x.lower) ∧
      (d.value < x.upper ∨ x.significand % 2 = 0 ∧ d.value = x.upper) := by
  unfold readsBack
  simp only [compareScaled_eq, Bool.and_eq_true, Bool.or_eq_true, beq_iff_eq, compare_gt_iff_gt, compare_lt_iff_lt,
    compare_eq_iff_eq]
  exact Iff.rfl

/-- Decimals of one value read back alike. -/
theorem readsBack_congr (x : Binary) {d d' : Decimal} (h : d.value = d'.value) : x.readsBack d = x.readsBack d' := by
  rw [Bool.eq_iff_iff, readsBack_iff, readsBack_iff, h]

/-- What lies between decimals that read back reads back. -/
theorem readsBack_of_between {x : Binary} {a b d : Decimal} (ha : x.readsBack a = true) (hb : x.readsBack b = true)
    (had : a.value ≤ d.value) (hdb : d.value ≤ b.value) : x.readsBack d = true := by
  rw [readsBack_iff] at ha hb ⊢
  constructor
  · rcases ha.1 with hlt | ⟨heven, heq⟩
    · exact .inl (hlt.trans_le had)
    · rw [heq] at had
      exact had.lt_or_eq.imp_right fun h => ⟨heven, h.symm⟩
  · rcases hb.2 with hlt | ⟨heven, heq⟩
    · exact .inl (hdb.trans_lt hlt)
    · rw [heq] at hdb
      exact hdb.lt_or_eq.imp_right fun h => ⟨heven, h⟩

theorem value_exact (x : Binary) : x.exact.value = x.value := by
  unfold exact
  split
  · rename_i hexp
    rw [value, Decimal.value]
    push_cast [Nat.pow_eq]
    rw [← zpow_natCast, Int.toNat_of_nonneg hexp, mul_one]
  · rename_i hexp
    have hten : (10 : ℚ) ^ x.exp = 2 ^ x.exp * 5 ^ x.exp := by rw [← mul_zpow]; norm_num
    have hfive : (5 : ℚ) ^ (-x.exp) * 5 ^ x.exp = 1 := by rw [← zpow_add₀ (by norm_num), neg_add_cancel, zpow_zero]
    rw [value, Decimal.value]
    push_cast [Nat.pow_eq]
    rw [← zpow_natCast, Int.toNat_of_nonneg (by omega), hten]
    calc (x.significand : ℚ) * 5 ^ (-x.exp) * (2 ^ x.exp * 5 ^ x.exp)
        = x.significand * 2 ^ x.exp * (5 ^ (-x.exp) * 5 ^ x.exp) := by ring
      _ = x.significand * 2 ^ x.exp := by rw [hfive, mul_one]

theorem value_eq (x : Binary) : x.value = 4 * x.significand * 2 ^ (x.exp - 2) := by
  rw [value, zpow_sub₀ (by norm_num)]
  ring

/-- What a double is exactly lies inside the interval. -/
theorem readsBack_exact {x : Binary} (hx : 0 < x.significand) : x.readsBack x.exact = true := by
  have hpos : (0 : ℚ) < 2 ^ (x.exp - 2) := by positivity
  have hlower : ((4 * x.significand - if x.closeBelow then 1 else 2 : Nat) : ℚ) < 4 * x.significand := by
    have hlt : (4 * x.significand - if x.closeBelow then 1 else 2 : Nat) < 4 * x.significand := by
      split <;> omega
    exact_mod_cast hlt
  have hupper : (4 * x.significand : ℚ) < ((4 * x.significand + 2 : Nat) : ℚ) := by
    push_cast
    linarith
  rw [readsBack_iff, value_exact, value_eq]
  exact ⟨.inl (mul_lt_mul_of_pos_right hlower hpos), .inl (mul_lt_mul_of_pos_right hupper hpos)⟩

end Binary

end Quotation.Decimal
