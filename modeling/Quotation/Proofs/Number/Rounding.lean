import Quotation.Proofs.Number.Widening
/-!
# Integers as doubles

Doubles are ordered as their values are (`Double.value_le_value_iff`). An integer becomes the nearest
double, and of two that are equally near the one with the even code (`Double.isNearest_ofInt`). So the
order of integers is kept, though not strictly (`Double.value_ofInt_mono`): from 53 bits on, integers can
become the same double.
-/

namespace Quotation

namespace Double

/-! ## Order and values -/

section Order

variable {a b : Double}

theorem units_eq_of_magnitude_eq (h : a.magnitude = b.magnitude) : a.units = b.units := by
  rw [units, units, h]

/-- A larger code of the magnitude is a larger value, whether or not the exponent is the same. -/
theorem units_lt_units (h : a.magnitude < b.magnitude) : a.units < b.units := by
  have hexponent : a.magnitude / 2 ^ 52 ≤ b.magnitude / 2 ^ 52 := Nat.div_le_div_right (Nat.le_of_lt h)
  rw [units, units]
  split
  · split
    · omega
    · calc a.magnitude % 2 ^ 52 < 2 ^ 52 := Nat.mod_lt _ (Nat.two_pow_pos 52)
        _ ≤ 2 ^ 52 + b.magnitude % 2 ^ 52 := Nat.le_add_right _ _
        _ ≤ _ := Nat.le_mul_of_pos_right _ (Nat.two_pow_pos _)
  · rw [if_neg (by omega)]
    by_cases hsame : a.magnitude / 2 ^ 52 = b.magnitude / 2 ^ 52
    · rw [hsame]
      exact Nat.mul_lt_mul_of_pos_right (by omega) (Nat.two_pow_pos _)
    · -- A significand is below twice the least one, which the next exponent makes up for.
      calc (2 ^ 52 + a.magnitude % 2 ^ 52) * 2 ^ (a.magnitude / 2 ^ 52 - 1)
          < 2 ^ 53 * 2 ^ (a.magnitude / 2 ^ 52 - 1) := Nat.mul_lt_mul_of_pos_right (by omega) (Nat.two_pow_pos _)
        _ = 2 ^ 52 * 2 ^ (a.magnitude / 2 ^ 52) := by
          rw [← Nat.pow_add, ← Nat.pow_add]
          congr 1
          omega
        _ ≤ 2 ^ 52 * 2 ^ (b.magnitude / 2 ^ 52 - 1) :=
          Nat.mul_le_mul_left _ (Nat.pow_le_pow_right (by decide) (by omega))
        _ ≤ _ := Nat.mul_le_mul_right _ (Nat.le_add_right _ _)

theorem units_lt_units_iff : a.units < b.units ↔ a.magnitude < b.magnitude := by
  refine ⟨fun h => ?_, units_lt_units⟩
  by_contra hle
  rcases Nat.eq_or_lt_of_le (Nat.not_lt.1 hle) with heq | hlt
  · exact absurd (units_eq_of_magnitude_eq heq) (Nat.ne_of_gt h)
  · exact absurd (units_lt_units hlt) (Nat.lt_asymm h)

theorem units_eq_zero_iff : a.units = 0 ↔ a.magnitude = 0 := by
  have hzero : (ofMagnitude false 0).units = 0 := by decide
  have hlt : (ofMagnitude false 0).units < a.units ↔ (ofMagnitude false 0).magnitude < a.magnitude := units_lt_units_iff
  rw [hzero, magnitude_ofMagnitude false (by decide)] at hlt
  omega

/-- The value, counted in units of `2 ^ (-1074)`. An infinity counts as the power of two that comes after the finite
doubles. -/
def value (d : Double) : Int := if d.isNegative then -(d.units : Int) else d.units

theorem value_le_value_iff : a.value ≤ b.value ↔ a.rank ≤ b.rank := by
  have hlt : a.units < b.units ↔ a.magnitude < b.magnitude := units_lt_units_iff
  have hgt : b.units < a.units ↔ b.magnitude < a.magnitude := units_lt_units_iff
  have ha : a.units = 0 ↔ a.magnitude = 0 := units_eq_zero_iff
  have hb : b.units = 0 ↔ b.magnitude = 0 := units_eq_zero_iff
  unfold value rank
  split <;> split <;> omega

end Order

/-! ## Rounding to a grid -/

/-- On a grid of the width `2 ^ s`, what is not strictly between the neighbours of a number is no nearer to it than the
neighbour that it is rounded to, and just as near only if this one is even. -/
theorem roundShift_nearest (m s : Nat) {unit : Nat} (hunit : 0 < unit) {v : Int}
    (hv : v ≤ ((m / 2 ^ s * 2 ^ s * unit : Nat) : Int) ∨ (((m / 2 ^ s + 1) * 2 ^ s * unit : Nat) : Int) ≤ v) :
    (((roundShift m s * 2 ^ s * unit : Nat) : Int) - (m * unit : Nat)).natAbs ≤ (v - (m * unit : Nat)).natAbs ∧
      ((v - (m * unit : Nat)).natAbs = (((roundShift m s * 2 ^ s * unit : Nat) : Int) - (m * unit : Nat)).natAbs →
        v = (roundShift m s * 2 ^ s * unit : Nat) ∨ roundShift m s % 2 = 0) := by
  have hm : m * unit = m / 2 ^ s * 2 ^ s * unit + m % 2 ^ s * unit := by
    rw [← Nat.add_mul, Nat.div_add_mod']
  have hnext : (m / 2 ^ s + 1) * 2 ^ s * unit = m / 2 ^ s * 2 ^ s * unit + 2 ^ s * unit := by
    rw [Nat.add_mul, Nat.one_mul, Nat.add_mul]
  have hrest : m % 2 ^ s * unit < 2 ^ s * unit := Nat.mul_lt_mul_of_pos_right (Nat.mod_lt _ (Nat.two_pow_pos s)) hunit
  have hlow : 2 * (m % 2 ^ s) ≤ 2 ^ s ↔ 2 * (m % 2 ^ s * unit) ≤ 2 ^ s * unit := by
    rw [← Nat.mul_assoc, Nat.mul_le_mul_right_iff hunit]
  have hhigh : 2 ^ s ≤ 2 * (m % 2 ^ s) ↔ 2 ^ s * unit ≤ 2 * (m % 2 ^ s * unit) := by
    rw [← Nat.mul_assoc, Nat.mul_le_mul_right_iff hunit]
  obtain ⟨hrounded, heven⟩ := roundShift_spec m s
  rw [hnext] at hv
  rcases hrounded with ⟨hdown, hhalf⟩ | ⟨hup, hhalf⟩
  · rw [hlow] at hhalf
    rw [hm, show roundShift m s * 2 ^ s * unit = m / 2 ^ s * 2 ^ s * unit by rw [hdown]]
    generalize m / 2 ^ s * 2 ^ s * unit = low, m % 2 ^ s * unit = rest, 2 ^ s * unit = width at *
    omega
  · rw [hhigh] at hhalf
    rw [hm, show roundShift m s * 2 ^ s * unit = m / 2 ^ s * 2 ^ s * unit + 2 ^ s * unit by rw [hup, hnext]]
    generalize m / 2 ^ s * 2 ^ s * unit = low, m % 2 ^ s * unit = rest, 2 ^ s * unit = width at *
    omega

/-! ## Nearest doubles -/

variable {m : Nat}

/-- A unit is this often halved from one. -/
def unitExponent : Nat := 1074

/-- How many units the number one holds. -/
def unitsOfOne : Nat := 2 ^ unitExponent

theorem unitsOfOne_pos : 0 < unitsOfOne := Nat.two_pow_pos _

/-- How far a double is from an integer. -/
def distance (i : Int) (d : Double) : Nat := (d.value - i * unitsOfOne).natAbs

/-- The double nearest to an integer. If another one is just as near, the code is even. -/
structure IsNearest (i : Int) (d : Double) : Prop where
  isFinite : d.isFinite = true
  distance_le (c : Double) (hc : c.isFinite = true) : d.distance i ≤ c.distance i
  even (c : Double) (hc : c.isFinite = true) (hd : c.distance i = d.distance i) : c.value = d.value ∨ d.magnitude % 2 = 0

theorem units_of_bits {d : Double} (hd : d.magnitude = encodeScaled m 1074) (hbits : m.log2 ≤ 52) :
    d.units = m * unitsOfOne := by
  by_cases hm : m = 0
  · subst hm
    rw [Nat.zero_mul]
    exact units_eq_zero_iff.2 hd
  · rw [encodeScaled_eq_significand hm] at hd
    obtain ⟨hlow, hhigh⟩ := significand_bounds hm
    rw [units_of_code hd hlow hhigh, significand, if_pos hbits, Nat.mul_assoc, ← Nat.pow_add, unitsOfOne]
    congr 2
    unfold unitExponent
    omega

/-- Above 53 bits the integer is rounded to a grid on which all doubles of its size are. -/
theorem units_of_rounded {d : Double} (hd : d.magnitude = encodeScaled m 1074) (hbits : 52 < m.log2) :
    d.units = roundShift m (m.log2 - 52) * 2 ^ (m.log2 - 52) * unitsOfOne := by
  have hm : m ≠ 0 := by
    rintro rfl
    simp at hbits
  rw [encodeScaled_eq_significand hm] at hd
  obtain ⟨hlow, hhigh⟩ := significand_bounds hm
  rw [units_of_code hd hlow hhigh, significand, if_neg (Nat.not_le.2 hbits), Nat.mul_assoc, unitsOfOne, ← Nat.pow_add]
  congr 2
  unfold unitExponent
  omega

/-- No double is strictly between two neighbours on the grid of an integer of more than 53 bits. -/
theorem not_between {v : Int} (hm : m < 2 ^ 64) (hbits : 52 < m.log2) {c : Double} (hv : v.natAbs = c.units) :
    v ≤ ((m / 2 ^ (m.log2 - 52) * 2 ^ (m.log2 - 52) * unitsOfOne : Nat) : Int) ∨
      (((m / 2 ^ (m.log2 - 52) + 1) * 2 ^ (m.log2 - 52) * unitsOfOne : Nat) : Int) ≤ v := by
  have hne : m ≠ 0 := by
    rintro rfl
    simp at hbits
  have htop : m.log2 < 64 := (Nat.log2_lt hne).2 hm
  obtain ⟨hlow, hhigh⟩ := le_div_two_pow_log2 hne hbits
  -- The codes of the neighbours follow each other, and values are ordered as codes are.
  have hunits : ∀ g, 2 ^ 52 ≤ g → g ≤ 2 ^ 53 →
      (ofMagnitude false ((1022 + m.log2) * 2 ^ 52 + g)).magnitude = (1022 + m.log2) * 2 ^ 52 + g ∧
      (ofMagnitude false ((1022 + m.log2) * 2 ^ 52 + g)).units = g * 2 ^ (m.log2 - 52) * unitsOfOne := by
    intro g hlow hhigh
    have hcode := magnitude_ofMagnitude false (show (1022 + m.log2) * 2 ^ 52 + g < 2 ^ 63 by omega)
    refine ⟨hcode, ?_⟩
    rw [units_of_code hcode hlow hhigh, Nat.mul_assoc, unitsOfOne, ← Nat.pow_add]
    congr 2
    unfold unitExponent
    omega
  obtain ⟨hcode, hvalue⟩ := hunits _ hlow (Nat.le_of_lt hhigh)
  obtain ⟨hcode', hvalue'⟩ := hunits (m / 2 ^ (m.log2 - 52) + 1) (by omega) hhigh
  have hbelow := units_lt_units_iff (a := ofMagnitude false ((1022 + m.log2) * 2 ^ 52 + m / 2 ^ (m.log2 - 52))) (b := c)
  have habove := units_lt_units_iff (a := c)
    (b := ofMagnitude false ((1022 + m.log2) * 2 ^ 52 + (m / 2 ^ (m.log2 - 52) + 1)))
  rw [hcode, hvalue] at hbelow
  rw [hcode', hvalue'] at habove
  generalize m / 2 ^ (m.log2 - 52) * 2 ^ (m.log2 - 52) * unitsOfOne = low,
    (m / 2 ^ (m.log2 - 52) + 1) * 2 ^ (m.log2 - 52) * unitsOfOne = high at *
  omega

theorem units_nearest (hm : m < 2 ^ 64) {d c : Double} (hd : d.magnitude = encodeScaled m 1074) {v : Int}
    (hv : v.natAbs = c.units) :
    ((d.units : Int) - (m * unitsOfOne : Nat)).natAbs ≤ (v - (m * unitsOfOne : Nat)).natAbs ∧
      ((v - (m * unitsOfOne : Nat)).natAbs = ((d.units : Int) - (m * unitsOfOne : Nat)).natAbs →
        v = d.units ∨ d.magnitude % 2 = 0) := by
  rcases Nat.lt_or_ge 52 m.log2 with hbits | hbits
  · obtain ⟨hle, heven⟩ := roundShift_nearest m (m.log2 - 52) unitsOfOne_pos (not_between hm hbits hv)
    have hne : m ≠ 0 := by
      rintro rfl
      simp at hbits
    have hparity : d.magnitude % 2 = roundShift m (m.log2 - 52) % 2 := by
      rw [hd, encodeScaled_eq_significand hne, significand, if_neg (Nat.not_le.2 hbits)]
      omega
    rw [units_of_rounded hd hbits, hparity]
    exact ⟨hle, heven⟩
  · rw [units_of_bits hd hbits, Int.sub_self, Int.natAbs_zero]
    exact ⟨Nat.zero_le _, fun h => .inl (Int.sub_eq_zero.1 (Int.natAbs_eq_zero.1 h))⟩

theorem magnitude_ofInt {i : Int} (h : i.natAbs < 2 ^ 64) : (ofInt i).magnitude = encodeScaled i.natAbs 1074 :=
  magnitude_ofMagnitude _ (Nat.lt_trans (encodeScaled_lt h) (by decide))

theorem isNegative_ofInt {i : Int} (h : i.natAbs < 2 ^ 64) : (ofInt i).isNegative = decide (i < 0) :=
  isNegative_ofMagnitude _ (Nat.lt_trans (encodeScaled_lt h) (by decide))

/-- An integer becomes the double that is nearest to it, and of two the one whose last bit is zero. -/
theorem isNearest_ofInt {i : Int} (h : i.natAbs < 2 ^ 64) : IsNearest i (ofInt i) := by
  have hmagnitude := magnitude_ofInt h
  have hnegative := isNegative_ofInt h
  have hfinite : (ofInt i).isFinite = true := by
    rw [isFinite, hmagnitude]
    exact decide_eq_true (encodeScaled_lt h)
  -- Both signs are the case of the absolute value, the other double being turned around with the integer.
  have hnearest : ∀ c : Double, (ofInt i).distance i ≤ c.distance i ∧
      (c.distance i = (ofInt i).distance i → c.value = (ofInt i).value ∨ (ofInt i).magnitude % 2 = 0) := by
    intro c
    by_cases hi : i < 0
    · have hv : (-c.value).natAbs = c.units := by
        unfold value
        split <;> omega
      have hcast : i * unitsOfOne = -((i.natAbs * unitsOfOne : Nat) : Int) := by
        rw [Int.natCast_mul, ← Int.neg_mul]
        congr 1
        omega
      have hmain := units_nearest h hmagnitude hv
      rw [distance, distance, hcast, show (ofInt i).value = -((ofInt i).units : Int) by simp [value, hnegative, hi]]
      generalize i.natAbs * unitsOfOne = x at *
      omega
    · have hv : c.value.natAbs = c.units := by
        unfold value
        split <;> omega
      have hcast : i * unitsOfOne = ((i.natAbs * unitsOfOne : Nat) : Int) := by
        rw [Int.natCast_mul]
        congr 1
        omega
      have hmain := units_nearest h hmagnitude hv
      rw [distance, distance, hcast, show (ofInt i).value = ((ofInt i).units : Int) by simp [value, hnegative, hi]]
      exact hmain
  exact ⟨hfinite, fun c _ => (hnearest c).1, fun c _ => (hnearest c).2⟩

/-! ## The order of integers -/

variable {i j : Int}

/-- Integers of 53 bits are doubles. So is the next one, which is a power of two. -/
theorem value_ofInt (h : i.natAbs ≤ 2 ^ 53) : (ofInt i).value = i * unitsOfOne := by
  have hsmall : i.natAbs < 2 ^ 64 := by omega
  have hunits : (ofInt i).units = i.natAbs * unitsOfOne := by
    rcases Nat.lt_or_eq_of_le h with hlt | heq
    · refine units_of_bits (magnitude_ofInt hsmall) ?_
      by_cases hi : i.natAbs = 0
      · simp [hi]
      · exact Nat.le_of_lt_succ ((Nat.log2_lt hi).2 hlt)
    · have hcode : (ofInt i).magnitude = (unitExponent + 1) * 2 ^ 52 + 2 ^ 52 := by
        rw [magnitude_ofInt hsmall, heq]
        decide
      rw [units_of_code hcode (Nat.le_refl _) (by decide), heq, unitsOfOne, Nat.pow_succ]
      omega
  rw [value, isNegative_ofInt hsmall, hunits, Int.natCast_mul]
  by_cases hi : i < 0
  · rw [if_pos (decide_eq_true hi), ← Int.neg_mul]
    congr 1
    omega
  · rw [if_neg (by simpa using hi)]
    congr 1
    omega

/-- A smaller integer does not become a larger double. -/
theorem value_ofInt_mono (hi : i.natAbs < 2 ^ 64) (hj : j.natAbs < 2 ^ 64) (h : i ≤ j) :
    (ofInt i).value ≤ (ofInt j).value := by
  rcases Int.lt_or_eq_of_le h with hlt | rfl
  · have hnearest := isNearest_ofInt hi
    have hnearest' := isNearest_ofInt hj
    have hle := hnearest.distance_le _ hnearest'.isFinite
    have hle' := hnearest'.distance_le _ hnearest.isFinite
    have hunits : i * unitsOfOne < j * unitsOfOne :=
      Int.mul_lt_mul_of_pos_right hlt (Int.natCast_pos.2 unitsOfOne_pos)
    unfold distance at hle hle'
    omega
  · exact Int.le_refl _

/-- Two integers that do not both go beyond 53 bits on the same side become different doubles. -/
theorem value_ofInt_strictMono (hi : i.natAbs < 2 ^ 64) (hj : j.natAbs < 2 ^ 64) (h : i < j) (hhigh : i < 2 ^ 53)
    (hlow : -2 ^ 53 < j) : (ofInt i).value < (ofInt j).value := by
  have hfirst : (ofInt i).value ≤ max i (-2 ^ 53) * unitsOfOne := by
    rw [← value_ofInt (i := max i (-2 ^ 53)) (by omega)]
    exact value_ofInt_mono hi (by omega) (by omega)
  have hlast : min j (2 ^ 53) * unitsOfOne ≤ (ofInt j).value := by
    rw [← value_ofInt (i := min j (2 ^ 53)) (by omega)]
    exact value_ofInt_mono (by omega) hj (by omega)
  have hunits : max i (-2 ^ 53) * unitsOfOne < min j (2 ^ 53) * unitsOfOne :=
    Int.mul_lt_mul_of_pos_right (by omega) (Int.natCast_pos.2 unitsOfOne_pos)
  omega

end Double

end Quotation
