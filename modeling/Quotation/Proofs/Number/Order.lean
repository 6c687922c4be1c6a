import Quotation.Eval.Builtin
import Quotation.Proofs.Number.Rounding
/-!
# The order on numbers

Two integers are compared exactly, and an integer and a double after the integer has become the nearest
double. So a double can stand between two integers that are in the wrong order, if both become this one.
That is the only way in which the order fails to be transitive (`Number.le_trans_iff`); it takes two
integers beyond 53 bits.
-/

namespace Quotation

/-! ## Doubles -/

namespace Double

variable {a b : Double}

theorem bits_eq (d : Double) : d.bits.toNat = d.isNegative.toNat * 2 ^ 63 + d.magnitude := by
  have hlt := d.bits.toNat_lt
  rw [magnitude_eq, isNegative_eq, Nat.testBit_eq_decide_div_mod_eq]
  by_cases h : d.bits.toNat / 2 ^ 63 % 2 = 1
  · rw [decide_eq_true h, Bool.toNat_true]
    omega
  · rw [decide_eq_false h, Bool.toNat_false]
    omega

/-- Only the zeros are different doubles of the same value. -/
theorem eq_of_value_eq (h : a.value = b.value) (hne : a.value ≠ 0) : a = b := by
  have hle : a.rank ≤ b.rank := value_le_value_iff.1 (Int.le_of_eq h)
  have hge : b.rank ≤ a.rank := value_le_value_iff.1 (Int.le_of_eq h.symm)
  have hzero : a.units = 0 ↔ a.magnitude = 0 := units_eq_zero_iff
  have hbits : a.bits.toNat = b.bits.toNat := by
    rw [bits_eq, bits_eq]
    unfold value rank at *
    cases ha : a.isNegative <;> cases hb : b.isNegative <;> simp [ha, hb] at * <;> omega
  exact congrArg Double.mk (UInt64.toNat_inj.1 hbits)

/-- Doubles are compared by their values, unless one is a NaN. -/
theorem compare?_eq_lt_or_eq_iff :
    a.compare? b = some .lt ∨ a.compare? b = some .eq ↔ a.isNaN = false ∧ b.isNaN = false ∧ a.value ≤ b.value := by
  rw [value_le_value_iff, compare?]
  cases ha : a.isNaN with
  | true => simp
  | false =>
    cases hb : b.isNaN with
    | true => simp
    | false =>
      simp only [Bool.or_self, Bool.false_eq_true, if_false, Option.some.injEq, true_and]
      rw [Int.compare_eq_lt, Int.compare_eq_eq]
      omega

end Double

namespace Number

variable {a b c : Number} {i j : Int64}

/-! ## Order of values -/

theorem le_iff : a.le b = true ↔ a.compare? b = some .lt ∨ a.compare? b = some .eq := by
  rw [le, Bool.or_eq_true, beq_iff_eq, beq_iff_eq]

theorem le_int_iff : (int i).le (int j) = true ↔ i.toInt ≤ j.toInt := by
  have hcompare : (int i).compare? (int j) = some (compare i.toInt j.toInt) := rfl
  rw [le_iff, hcompare, Option.some.injEq, Option.some.injEq, Int.compare_eq_lt, Int.compare_eq_eq]
  omega

/-- If one of two numbers is a double, they are compared as doubles. -/
theorem le_iff_of_isFloat (h : a.isFloat = true ∨ b.isFloat = true) : a.le b = true ↔
    a.toDouble.isNaN = false ∧ b.toDouble.isNaN = false ∧ a.toDouble.value ≤ b.toDouble.value := by
  have hcompare : a.compare? b = a.toDouble.compare? b.toDouble := by
    cases a with
    | float d => rfl
    | int i =>
      cases b with
      | float d => rfl
      | int j => simp [isFloat] at h
  rw [le_iff, hcompare, Double.compare?_eq_lt_or_eq_iff]

theorem natAbs_toInt_lt (i : Int64) : i.toInt.natAbs < 2 ^ 64 := by
  have hlow := i.le_toInt
  have hhigh := i.toInt_lt
  omega

theorem isNaN_toDouble_int (i : Int64) : (int i).toDouble.isNaN = false := by
  have hfinite : (int i).toDouble.isFinite = true := (Double.isNearest_ofInt (natAbs_toInt_lt i)).isFinite
  have hlt := of_decide_eq_true hfinite
  exact decide_eq_false (Nat.lt_asymm hlt)

/-- What is in order is in order as doubles. The converse fails for integers that become the same double. -/
theorem values_of_le (h : a.le b = true) :
    a.toDouble.isNaN = false ∧ b.toDouble.isNaN = false ∧ a.toDouble.value ≤ b.toDouble.value := by
  cases a with
  | float d => exact (le_iff_of_isFloat (.inl rfl)).1 h
  | int i =>
    cases b with
    | float d => exact (le_iff_of_isFloat (.inr rfl)).1 h
    | int j =>
      exact ⟨isNaN_toDouble_int i, isNaN_toDouble_int j,
        Double.value_ofInt_mono (natAbs_toInt_lt i) (natAbs_toInt_lt j) (le_int_iff.1 h)⟩

/-- The test `<=` of two numbers. -/
theorem comparison_atMost (m n : Option String) (a b : Number) :
    Builtin.comparison .atMost [⟨m, .ofNumber a⟩, ⟨n, .ofNumber b⟩] = .ok (.ofBool (a.le b)) := by
  have htest : Builtin.comparison .atMost [⟨m, .ofNumber a⟩, ⟨n, .ofNumber b⟩] =
      .ok (.ofBool ((a.compare? b).any (Builtin.holds .atMost))) := rfl
  rw [htest, le]
  rcases a.compare? b with _ | _ | _ | _ <;> rfl

/-! ## Transitivity -/

/-- A double between two integers that both become this one, the larger integer first. They have more than 53 bits. -/
inductive Collapsed : Number → Number → Number → Prop where
  | intro {i j : Int64} {d : Double} (hlt : j < i) (hi : .ofInt i.toInt = d) (hj : .ofInt j.toInt = d)
    (hbits : 2 ^ 53 ≤ j.toInt ∨ i.toInt ≤ -2 ^ 53) : Collapsed (int i) (float d) (int j)

theorem Collapsed.not_le (h : Collapsed a b c) : ¬ a.le c = true := by
  obtain ⟨hlt, -, -, -⟩ := h
  rw [le_int_iff, Int.not_le]
  exact Int64.lt_iff_toInt_lt.1 hlt

/-- A double between two integers in the wrong order is the one that they become. -/
theorem collapsed_of_not_le {d : Double} (hi : (int i).le (float d) = true) (hj : (float d).le (int j) = true)
    (hnot : ¬ (int i).le (int j) = true) : Collapsed (int i) (float d) (int j) := by
  have hlt : j.toInt < i.toInt := by rwa [le_int_iff, Int.not_le] at hnot
  have hvalues : (Double.ofInt i.toInt).value ≤ d.value := (values_of_le hi).2.2
  have hvalues' : d.value ≤ (Double.ofInt j.toInt).value := (values_of_le hj).2.2
  have hmono := Double.value_ofInt_mono (natAbs_toInt_lt j) (natAbs_toInt_lt i) (Int.le_of_lt hlt)
  have hbits : 2 ^ 53 ≤ j.toInt ∨ i.toInt ≤ -2 ^ 53 := by
    by_contra hsmall
    have hstrict := Double.value_ofInt_strictMono (natAbs_toInt_lt j) (natAbs_toInt_lt i) hlt (by omega) (by omega)
    omega
  -- No zero is far from an integer of more than 53 bits, so that values tell these doubles apart.
  have hne : d.value ≠ 0 := by
    have hzero : (Double.ofInt 0).value = 0 := by decide
    rcases hbits with hbits | hbits
    · have hpos := Double.value_ofInt_strictMono (i := 0) (by decide) (natAbs_toInt_lt i) (by omega) (by decide) (by omega)
      omega
    · have hneg := Double.value_ofInt_strictMono (j := 0) (natAbs_toInt_lt j) (by decide) (by omega) (by omega) (by decide)
      omega
  refine .intro (Int64.lt_iff_toInt_lt.2 hlt) (Double.eq_of_value_eq (by omega) hne).symm
    (Double.eq_of_value_eq (by omega) hne).symm hbits

/-- An integer is compared with a double as the nearest double, and numbers that are in order one after the other are in
order, unless they are a double between two integers that become this double. -/
theorem le_trans_iff (hab : a.le b = true) (hbc : b.le c = true) :
    (∀ i : Int64, Double.IsNearest i.toInt (int i).toDouble) ∧ (a.le c = true ↔ ¬ Collapsed a b c) := by
  refine ⟨fun i => Double.isNearest_ofInt (natAbs_toInt_lt i), fun hle hcollapsed => hcollapsed.not_le hle, fun hnot => ?_⟩
  obtain ⟨ha, -, hvalues⟩ := values_of_le hab
  obtain ⟨-, hc, hvalues'⟩ := values_of_le hbc
  have hvalue := Int.le_trans hvalues hvalues'
  cases a with
  | float d => exact (le_iff_of_isFloat (.inl rfl)).2 ⟨ha, hc, hvalue⟩
  | int i =>
    cases c with
    | float d => exact (le_iff_of_isFloat (.inr rfl)).2 ⟨ha, hc, hvalue⟩
    | int j =>
      cases b with
      | int k => exact le_int_iff.2 (Int.le_trans (le_int_iff.1 hab) (le_int_iff.1 hbc))
      | float d => exact Decidable.byContradiction fun hle => hnot (collapsed_of_not_le hab hbc hle)

/-- The double `2 ^ 53` between the integers `2 ^ 53 + 1` and `2 ^ 53`. -/
theorem le_trans_iff_beyond :
    let a : Number := int 9007199254740993
    let b : Number := float ⟨0x4340000000000000⟩
    let c : Number := int 9007199254740992
    a.le b = true ∧ b.le c = true ∧ Collapsed a b c ∧ ¬ a.le c = true := by
  intro a b c
  have hab : a.le b = true := by decide
  have hbc : b.le c = true := by decide
  have hcollapsed : Collapsed a b c := .intro (by decide) (by decide) (by decide) (by decide)
  exact ⟨hab, hbc, hcollapsed, fun hle => (le_trans_iff hab hbc).2.1 hle hcollapsed⟩

/-- The integer `2 ^ 53 + 1` is at most the double `2 ^ 53`, which is at most the integer `2 ^ 53`. -/
theorem not_le_trans : ¬ ∀ a b c : Number, a.le b = true → b.le c = true → a.le c = true := by
  intro h
  have hle := h (int 9007199254740993) (float ⟨0x4340000000000000⟩) (int 9007199254740992) (by decide) (by decide)
  exact absurd hle (by decide)

end Number

end Quotation
