import Quotation.Proofs.Number.ReadBack
/-!
# The fewest digits

The decimal that is written for a double is one with the fewest digits of all decimals that read back
as the double, and of those it is one of the nearest (`isShortest_shortest`).

The decimals with a given number of digits lie on a grid, but for those below the leading digit of
the double. If one of them reads back, so does the point of the grid next to the double on its side,
which is no farther away. So it is enough to look at the two points next to the double, on one grid
after the other. The grid with seventeen digits has one that reads back for every double.
-/

namespace Quotation.Decimal

/-! ## Powers of two and of ten -/

theorem zpow_le_zpow_of_pow_le {a b : ℚ} (ha : 1 ≤ a) (hb : 1 ≤ b) {i j : Nat} (hj : j ≠ 0) (h : a ^ i ≤ b ^ j)
    {p m : Int} (hm : 0 ≤ m) (hp : j * p ≤ i * m) : a ^ p ≤ b ^ m := by
  have hapos : 0 < a := one_pos.trans_le ha
  have hbpos : 0 < b := one_pos.trans_le hb
  have hpow : (a ^ p) ^ j ≤ (b ^ m) ^ j := by
    calc (a ^ p) ^ j = a ^ (j * p) := by rw [← zpow_natCast, ← zpow_mul, mul_comm]
      _ ≤ a ^ (i * m) := zpow_le_zpow_right₀ ha hp
      _ = (a ^ i) ^ m := by rw [zpow_mul, zpow_natCast]
      _ ≤ (b ^ j) ^ m := zpow_le_zpow_left₀ hm (by positivity) h
      _ = (b ^ m) ^ j := by rw [← zpow_natCast, ← zpow_mul, ← zpow_natCast, ← zpow_mul, mul_comm]
  exact (pow_le_pow_iff_left₀ (by positivity) (by positivity) hj).1 hpow

/-- Between `59 / 196` and `28 / 93` lies the logarithm of two to the base of ten. -/
theorem ten_zpow_le_two_zpow {p m : Int} (h : 0 ≤ m ∧ 196 * p ≤ 59 * m ∨ p ≤ 0 ∧ 93 * p ≤ 28 * m) :
    (10 : ℚ) ^ p ≤ 2 ^ m := by
  rcases h with ⟨hm, hp⟩ | ⟨hp, hm⟩
  · exact zpow_le_zpow_of_pow_le (by norm_num) (by norm_num) (i := 59) (j := 196) (by norm_num) (by norm_num) hm hp
  · have hinv : (2 : ℚ) ^ (-m) ≤ 10 ^ (-p) :=
      zpow_le_zpow_of_pow_le (by norm_num) (by norm_num) (i := 93) (j := 28) (by norm_num) (by norm_num)
        (by omega) (by push_cast; omega)
    rw [zpow_neg, zpow_neg] at hinv
    exact (inv_le_inv₀ (by positivity) (by positivity)).1 hinv

theorem two_zpow_le_ten_zpow {p m : Int} (h : 0 ≤ p ∧ 28 * m ≤ 93 * p ∨ m ≤ 0 ∧ 59 * m ≤ 196 * p) :
    (2 : ℚ) ^ m ≤ 10 ^ p := by
  rcases h with ⟨hp, hm⟩ | ⟨hm, hp⟩
  · exact zpow_le_zpow_of_pow_le (by norm_num) (by norm_num) (i := 93) (j := 28) (by norm_num) (by norm_num) hp hm
  · have hinv : (10 : ℚ) ^ (-p) ≤ 2 ^ (-m) :=
      ten_zpow_le_two_zpow (.inl ⟨by omega, by omega⟩)
    rw [zpow_neg, zpow_neg] at hinv
    exact (inv_le_inv₀ (by positivity) (by positivity)).1 hinv

namespace Binary

variable {x : Binary} {tie : Tie} {e k : Int}

/-! ## The leading digit -/

/-- What the bits of a finite double other than zero stand for. -/
structure IsDouble (x : Binary) : Prop where
  pos : 0 < x.significand
  lt : x.significand < 2 ^ 53
  least : -1074 ≤ x.exp
  greatest : x.exp ≤ 971
  close : x.closeBelow = true → x.significand = 2 ^ 52

theorem below_iff : x.below k = true ↔ x.value < 10 ^ k := by
  rw [below, beq_iff_eq, compareScaled_eq, compare_gt_iff_gt, Nat.cast_one, one_mul]
  exact Iff.rfl

theorem raise_spec {n : Nat} (hlow : 10 ^ (k - 1) ≤ x.value) (hhigh : x.value < 10 ^ (k + n)) :
    10 ^ (x.raise n k - 1) ≤ x.value ∧ x.value < 10 ^ x.raise n k := by
  induction n generalizing k with
  | zero => exact ⟨hlow, by simpa [raise] using hhigh⟩
  | succ n ih =>
    rw [raise]
    split
    · rename_i hbelow
      exact ⟨hlow, below_iff.1 hbelow⟩
    · rename_i hbelow
      refine ih ?_ ?_
      · rw [add_sub_cancel_right]
        exact not_lt.1 fun h => hbelow (below_iff.2 h)
      · rwa [add_assoc, add_comm 1, ← Nat.cast_succ]

/-- The scale is where the leading digit is. -/
theorem scale_spec (hx : x.IsDouble) : 10 ^ (x.scale - 1) ≤ x.value ∧ x.value < 10 ^ x.scale := by
  have hne : x.significand ≠ 0 := Nat.ne_of_gt hx.pos
  have hlog : x.significand.log2 < 53 := (Nat.log2_lt hne).2 hx.lt
  have hleast := hx.least
  have hgreatest := hx.greatest
  have hpow : (0 : ℚ) < 2 ^ x.exp := by positivity
  have hfloor : (2 : ℚ) ^ (x.significand.log2 + x.exp) ≤ x.value := by
    rw [zpow_add₀ (by norm_num), zpow_natCast, value]
    exact mul_le_mul_of_nonneg_right (by exact_mod_cast Nat.log2_self_le hne) hpow.le
  have hceil : x.value < (2 : ℚ) ^ (x.significand.log2 + x.exp + 1) := by
    rw [add_right_comm, ← Nat.cast_succ, zpow_add₀ (by norm_num), zpow_natCast, value]
    exact mul_lt_mul_of_pos_right (by exact_mod_cast Nat.lt_log2_self) hpow
  have hrange : -1074 ≤ x.significand.log2 + x.exp ∧ x.significand.log2 + x.exp ≤ 1023 := by omega
  unfold scale
  generalize (x.significand.log2 : Int) + x.exp = l at hfloor hceil hrange
  refine raise_spec ?_ ?_
  · exact (ten_zpow_le_two_zpow (by omega)).trans hfloor
  · exact hceil.trans_le (two_zpow_le_ten_zpow (by push_cast; omega))

/-! ## The points of a grid next to a double -/

/-- The point of a grid at the double or next below it. -/
abbrev pointBelow (x : Binary) (e : Int) : Decimal := ⟨(x.floorAt e).1, e⟩

/-- The point of a grid next above the double. -/
abbrev pointAbove (x : Binary) (e : Int) : Decimal := ⟨(x.floorAt e).1 + 1, e⟩

/-- How far the double lies between the two points, as a part of the way. -/
structure Offset (x : Binary) (e : Int) (r : ℚ) : Prop where
  nonneg : 0 ≤ r
  lt_one : r < 1
  below : (x.pointBelow e).value = x.value - r * 10 ^ e
  above : (x.pointAbove e).value = x.value + (1 - r) * 10 ^ e
  side : (x.floorAt e).2 = compare (2 * r) 1

theorem exists_offset (x : Binary) (e : Int) : ∃ r, x.Offset e r := by
  generalize hnum : x.significand * Nat.pow 2 x.exp.toNat * Nat.pow 10 (-e).toNat = num
  generalize hden : Nat.pow 2 (-x.exp).toNat * Nat.pow 10 e.toNat = den
  have hfloor : x.floorAt e = (num / den, compare (2 * (num % den)) den) := by rw [← hnum, ← hden, floorAt]
  have hpos : 0 < den := by
    rw [← hden]
    exact Nat.mul_pos (Nat.pow_pos (by decide)) (Nat.pow_pos (by decide))
  have hdenpos : (0 : ℚ) < den := by exact_mod_cast hpos
  have hscaled : x.value * den = num * 10 ^ e := by
    rw [← hnum, ← hden, value]
    push_cast [Nat.pow_eq]
    rw [← zpow_mul_pow_toNat (c := 2) (by norm_num) x.exp, ← zpow_mul_pow_toNat (c := 10) (by norm_num) e]
    ring
  have hdivision : (num : ℚ) = den * (num / den : Nat) + (num % den : Nat) := by
    exact_mod_cast (Nat.div_add_mod num den).symm
  have hvalue : x.value = ((num / den : Nat) + (num % den : Nat) / den) * 10 ^ e := by
    rw [eq_div_of_mul_eq hdenpos.ne' hscaled, hdivision, mul_div_right_comm, add_div,
      mul_div_cancel_left₀ _ hdenpos.ne']
  refine ⟨(num % den : Nat) / den, by positivity, ?_, ?_, ?_, ?_⟩
  · rw [div_lt_one hdenpos]
    exact_mod_cast Nat.mod_lt num hpos
  · rw [hvalue, pointBelow, hfloor, Decimal.value]
    ring
  · rw [hvalue, pointAbove, hfloor, Decimal.value]
    push_cast
    ring
  · rw [hfloor, ← mul_div_assoc]
    dsimp only
    rcases lt_trichotomy (2 * (num % den)) den with h | h | h
    · rw [Nat.compare_eq_lt.2 h, eq_comm, compare_lt_iff_lt, div_lt_one hdenpos]
      exact_mod_cast h
    · rw [Nat.compare_eq_eq.2 h, eq_comm, compare_eq_iff_eq, div_eq_one_iff_eq hdenpos.ne']
      exact_mod_cast h
    · rw [Nat.compare_eq_gt.2 h, eq_comm, compare_gt_iff_gt, one_lt_div hdenpos]
      exact_mod_cast h

namespace Offset

variable {r : ℚ} (h : x.Offset e r)
include h

theorem way_below_nonneg : 0 ≤ r * 10 ^ e := mul_nonneg h.nonneg (by positivity)

theorem way_above_pos : 0 < (1 - r) * 10 ^ e := mul_pos (sub_pos.2 h.lt_one) (by positivity)

theorem below_le : (x.pointBelow e).value ≤ x.value := by
  rw [h.below]
  exact sub_le_self _ h.way_below_nonneg

theorem le_above : x.value ≤ (x.pointAbove e).value := by
  rw [h.above]
  exact le_add_of_nonneg_right h.way_above_pos.le

theorem distance_below : |(x.pointBelow e).value - x.value| = r * 10 ^ e := by
  rw [h.below, sub_sub_cancel_left, abs_neg, abs_of_nonneg h.way_below_nonneg]

theorem distance_above : |(x.pointAbove e).value - x.value| = (1 - r) * 10 ^ e := by
  rw [h.above, add_sub_cancel_left, abs_of_pos h.way_above_pos]

end Offset

/-- A candidate is one of the two points, and reads back. -/
theorem of_candidate? {d : Decimal} (h : x.candidate? tie e = some d) :
    (d = x.pointBelow e ∨ d = x.pointAbove e) ∧ x.readsBack d = true := by
  unfold candidate? at h
  dsimp only at h
  split at h
  · cases h
  · cases h
    exact ⟨.inl rfl, by assumption⟩
  · cases h
    exact ⟨.inr rfl, by assumption⟩
  · rename_i hbelow habove
    have hd : d = x.pointBelow e ∨ d = x.pointAbove e := by
      split at h <;> cases h
      · exact .inl rfl
      · exact .inr rfl
      · exact .inr rfl
      · exact ite_eq_or_eq _ _ _
    obtain rfl | rfl := hd
    · exact ⟨.inl rfl, hbelow⟩
    · exact ⟨.inr rfl, habove⟩

/-- If both points read back, one that is nearest is taken. -/
theorem exists_candidate_of_both (hbelow : x.readsBack (x.pointBelow e) = true)
    (habove : x.readsBack (x.pointAbove e) = true) (tie : Tie) : ∃ d, x.candidate? tie e = some d ∧
      |d.value - x.value| ≤ |(x.pointBelow e).value - x.value| ∧
      |d.value - x.value| ≤ |(x.pointAbove e).value - x.value| := by
  obtain ⟨r, h⟩ := x.exists_offset e
  have hten : (0 : ℚ) ≤ 10 ^ e := by positivity
  have hlow (hr : 2 * r ≤ 1) : r * 10 ^ e ≤ (1 - r) * 10 ^ e := mul_le_mul_of_nonneg_right (by linarith) hten
  have hhigh (hr : 1 ≤ 2 * r) : (1 - r) * 10 ^ e ≤ r * 10 ^ e := mul_le_mul_of_nonneg_right (by linarith) hten
  rw [h.distance_below, h.distance_above]
  unfold candidate?
  dsimp only
  rw [hbelow, habove]
  dsimp only
  split
  · rename_i hlt
    rw [h.side, compare_lt_iff_lt] at hlt
    exact ⟨_, rfl, h.distance_below.le, h.distance_below.trans_le (hlow hlt.le)⟩
  · rename_i hgt
    rw [h.side, compare_gt_iff_gt] at hgt
    exact ⟨_, rfl, h.distance_above.trans_le (hhigh hgt.le), h.distance_above.le⟩
  · rename_i heq
    rw [h.side, compare_eq_iff_eq] at heq
    exact ⟨_, rfl, h.distance_above.trans_le (hhigh heq.ge), h.distance_above.le⟩
  · rename_i heq
    rw [h.side, compare_eq_iff_eq] at heq
    split
    · exact ⟨_, rfl, h.distance_below.le, h.distance_below.trans_le (hlow heq.le)⟩
    · exact ⟨_, rfl, h.distance_above.trans_le (hhigh heq.ge), h.distance_above.le⟩

/-- If one of the two points reads back there is a candidate, which is no farther away. -/
theorem exists_candidate {p : Decimal} (hp : p = x.pointBelow e ∨ p = x.pointAbove e) (h : x.readsBack p = true)
    (tie : Tie) : ∃ d, x.candidate? tie e = some d ∧ |d.value - x.value| ≤ |p.value - x.value| := by
  cases hbelow : x.readsBack (x.pointBelow e) with
  | false =>
    obtain rfl | rfl := hp
    · cases h.symm.trans hbelow
    · exact ⟨_, by simp [candidate?, hbelow, h], le_rfl⟩
  | true =>
    cases habove : x.readsBack (x.pointAbove e) with
    | false =>
      obtain rfl | rfl := hp
      · exact ⟨_, by simp [candidate?, h, habove], le_rfl⟩
      · cases h.symm.trans habove
    | true =>
      obtain ⟨d, hd, hnear, hnear'⟩ := exists_candidate_of_both hbelow habove tie
      obtain rfl | rfl := hp
      · exact ⟨d, hd, hnear⟩
      · exact ⟨d, hd, hnear'⟩

/-! ## Grids -/

theorem ten_zpow_add (n : Nat) (e : Int) : (10 : ℚ) ^ (n + e) = (10 ^ n : Nat) * 10 ^ e := by
  push_cast
  rw [← zpow_natCast, ← zpow_add₀ (by norm_num)]

/-- Where the leading digit of the double comes before `n` digits of a grid, no decimal with `n + 1`
digits lies between the two points. -/
theorem value_le_or_le_value {n : Nat} {a : Decimal} (hlow : 10 ^ (n + e) ≤ x.value) (ha : a.coeff < 10 ^ (n + 1)) :
    a.value ≤ (x.pointBelow e).value ∨ (x.pointAbove e).value ≤ a.value := by
  obtain ⟨r, h⟩ := x.exists_offset e
  have hten : (0 : ℚ) < 10 ^ e := by positivity
  have hpoint {i j : Nat} (hij : i ≤ j) : Decimal.value ⟨i, e⟩ ≤ Decimal.value ⟨j, e⟩ :=
    mul_le_mul_of_nonneg_right (by exact_mod_cast hij) hten.le
  rcases le_or_gt e a.exp with hexp | hexp
  · -- it is a point of the grid itself
    have hvalue : a.value = Decimal.value ⟨10 ^ (a.exp - e).toNat * a.coeff, e⟩ := by
      have hshift := ten_zpow_add (a.exp - e).toNat e
      rw [Int.toNat_of_nonneg (by omega), sub_add_cancel] at hshift
      rw [Decimal.value, Decimal.value, hshift]
      push_cast
      ring
    rw [hvalue]
    rcases Nat.lt_or_ge (x.floorAt e).1 (10 ^ (a.exp - e).toNat * a.coeff) with hlt | hge
    · exact .inr (hpoint hlt)
    · exact .inl (hpoint hge)
  · -- it lies below the leading digit of the double, which is a point of the grid
    rw [ten_zpow_add] at hlow
    have hfloor : 10 ^ n ≤ (x.floorAt e).1 := by
      have hlt : ((10 ^ n : Nat) : ℚ) * 10 ^ e < ((x.floorAt e).1 + 1 : Nat) * 10 ^ e :=
        hlow.trans_lt ((lt_add_of_pos_right _ h.way_above_pos).trans_eq h.above.symm)
      exact Nat.lt_succ_iff.1 (by exact_mod_cast (mul_lt_mul_iff_left₀ hten).1 hlt)
    left
    calc a.value ≤ (10 ^ (n + 1) : Nat) * 10 ^ a.exp :=
          mul_le_mul_of_nonneg_right (by exact_mod_cast ha.le) (by positivity)
      _ = 10 ^ ((n + 1 : Nat) + a.exp) := (ten_zpow_add _ _).symm
      _ ≤ 10 ^ (n + e) := zpow_le_zpow_right₀ (by norm_num) (by push_cast; omega)
      _ = Decimal.value ⟨10 ^ n, e⟩ := ten_zpow_add n e
      _ ≤ (x.pointBelow e).value := hpoint hfloor

/-- If such a decimal reads back, the grid has a candidate, which is no farther away. -/
theorem exists_candidate_of_readsBack {n : Nat} {a : Decimal} (hx : 0 < x.significand) (hlow : 10 ^ (n + e) ≤ x.value)
    (ha : a.coeff < 10 ^ (n + 1)) (hback : x.readsBack a = true) (tie : Tie) :
    ∃ d, x.candidate? tie e = some d ∧ |d.value - x.value| ≤ |a.value - x.value| := by
  obtain ⟨r, h⟩ := x.exists_offset e
  have hbelow := h.below_le
  have habove := h.le_above
  have hexact := readsBack_exact hx
  rcases value_le_or_le_value hlow ha with hle | hge
  · have hpoint := readsBack_of_between hback hexact hle (hbelow.trans_eq x.value_exact.symm)
    obtain ⟨d, hd, hnear⟩ := exists_candidate (.inl rfl) hpoint tie
    refine ⟨d, hd, hnear.trans ?_⟩
    rw [abs_of_nonpos (by linarith), abs_of_nonpos (by linarith)]
    linarith
  · have hpoint := readsBack_of_between hexact hback (x.value_exact.trans_le habove) hge
    obtain ⟨d, hd, hnear⟩ := exists_candidate (.inr rfl) hpoint tie
    refine ⟨d, hd, hnear.trans ?_⟩
    rw [abs_of_nonneg (by linarith), abs_of_nonneg (by linarith)]
    linarith

/-! ## Seventeen digits -/

theorem upper_eq (x : Binary) : x.upper = x.value + 2 * 2 ^ (x.exp - 2) := by
  rw [upper, value_eq]
  push_cast
  ring

theorem lower_eq (hx : 0 < x.significand) : x.lower = x.value - (if x.closeBelow then 1 else 2) * 2 ^ (x.exp - 2) := by
  have hle : (if x.closeBelow then 1 else 2) ≤ 4 * x.significand := by split <;> omega
  rw [lower, value_eq, Nat.cast_sub hle]
  push_cast
  ring

theorem lower_lt_value (hx : 0 < x.significand) : x.lower < x.value := by
  have hunit : (0 : ℚ) < 2 ^ (x.exp - 2) := by positivity
  rw [lower_eq hx]
  split <;> linarith

theorem readsBack_pointAbove {r : ℚ} (h : x.Offset e r) (hx : 0 < x.significand)
    (hr : (1 - r) * 10 ^ e < 2 * 2 ^ (x.exp - 2)) : x.readsBack (x.pointAbove e) = true := by
  rw [readsBack_iff, upper_eq]
  exact ⟨.inl ((lower_lt_value hx).trans_le h.le_above), .inl (by rw [h.above]; linarith)⟩

theorem readsBack_pointBelow {r : ℚ} (h : x.Offset e r) (hx : 0 < x.significand) (hclose : x.closeBelow = false)
    (hr : r * 10 ^ e < 2 * 2 ^ (x.exp - 2)) : x.readsBack (x.pointBelow e) = true := by
  have hunit : (0 : ℚ) < 2 ^ (x.exp - 2) := by positivity
  rw [readsBack_iff, upper_eq, lower_eq hx, hclose, if_neg Bool.false_ne_true]
  exact ⟨.inl (by rw [h.below]; linarith), .inl (h.below_le.trans_lt (by linarith))⟩

/-- Seventeen digits are enough to tell a double from its neighbours. -/
theorem exists_candidate_seventeen (hx : x.IsDouble) (hlow : 10 ^ (16 + e) ≤ x.value) (tie : Tie) :
    ∃ d, x.candidate? tie e = some d := by
  obtain ⟨r, h⟩ := x.exists_offset e
  have hunit : (0 : ℚ) < 2 ^ (x.exp - 2) := by positivity
  have hten : (0 : ℚ) < 10 ^ e := by positivity
  have hstep : (10 : ℚ) ^ 16 * 10 ^ e ≤ 4 * x.significand * 2 ^ (x.exp - 2) := by
    rw [← value_eq]
    exact_mod_cast (ten_zpow_add 16 e).symm.trans_le hlow
  have hpart {q : ℚ} (c : ℚ) (hq : q ≤ c) : q * 10 ^ e ≤ c * 10 ^ e := mul_le_mul_of_nonneg_right hq hten.le
  suffices hpoint : ∃ p, (p = x.pointBelow e ∨ p = x.pointAbove e) ∧ x.readsBack p = true by
    obtain ⟨p, hp, hback⟩ := hpoint
    obtain ⟨d, hd, -⟩ := exists_candidate hp hback tie
    exact ⟨d, hd⟩
  cases hclose : x.closeBelow with
  | true =>
    -- a grid is finer near the least significand, so the point above is near enough
    rw [hx.close hclose] at hstep
    have hwhole := hpart 1 (sub_le_self 1 h.nonneg)
    norm_num at hstep
    exact ⟨_, .inr rfl, readsBack_pointAbove h hx.pos (by linarith)⟩
  | false =>
    -- the nearer one of the points is near enough
    have hlt : (x.significand : ℚ) < 2 ^ 53 := by exact_mod_cast hx.lt
    have hwidth : (4 * x.significand : ℚ) * 2 ^ (x.exp - 2) < 4 * 2 ^ 53 * 2 ^ (x.exp - 2) :=
      mul_lt_mul_of_pos_right (by linarith) hunit
    norm_num at hwidth hstep
    rcases le_total (2 * r) 1 with hr | hr
    · have hhalf := hpart (1 / 2) (show r ≤ 1 / 2 by linarith)
      exact ⟨_, .inl rfl, readsBack_pointBelow h hx.pos hclose (by linarith)⟩
    · have hhalf := hpart (1 / 2) (show 1 - r ≤ 1 / 2 by linarith)
      exact ⟨_, .inr rfl, readsBack_pointAbove h hx.pos (by linarith)⟩

end Binary

/-! ## Zeros at the end -/

theorem coeff_stripZeros_le (n : Nat) (d : Decimal) : (stripZeros n d).coeff ≤ d.coeff := by
  induction n generalizing d with
  | zero => exact Nat.le_refl _
  | succ n ih =>
    rw [stripZeros]
    split
    · exact (ih _).trans (Nat.div_le_self _ _)
    · exact Nat.le_refl _

/-- A power of ten loses its zeros, and thus has fewer digits. -/
theorem coeff_stripZeros_lt {n steps : Nat} {d : Decimal} (h : d.coeff ≤ 10 ^ (n + 1)) :
    (stripZeros (steps + 1) d).coeff < 10 ^ (n + 1) := by
  rcases h.lt_or_eq with hlt | heq
  · exact (coeff_stripZeros_le _ d).trans_lt hlt
  · have hzero : (d.coeff % 10 == 0) = true := by simp [heq, Nat.pow_succ]
    rw [stripZeros, if_pos hzero]
    calc (stripZeros steps ⟨d.coeff / 10, d.exp + 1⟩).coeff ≤ d.coeff / 10 := coeff_stripZeros_le steps _
      _ = 10 ^ n := by rw [heq, Nat.pow_succ, Nat.mul_div_cancel _ (by decide)]
      _ < 10 ^ (n + 1) := Nat.pow_lt_pow_right (by decide) (Nat.lt_succ_self n)

/-- All zeros are moved, if there are no more digits than steps. -/
theorem coeff_stripZeros_mod_ten {n : Nat} {d : Decimal} (hpos : 0 < d.coeff) (h : d.coeff < 10 ^ n) :
    (stripZeros n d).coeff % 10 ≠ 0 := by
  induction n generalizing d with
  | zero => exact absurd hpos (by omega)
  | succ n ih =>
    rw [stripZeros]
    split
    · rename_i hzero
      rw [Nat.pow_succ] at h
      rw [beq_iff_eq] at hzero
      exact ih (by dsimp only; omega) (by dsimp only; omega)
    · rename_i hzero
      simpa using hzero

/-! ## The search -/

/-- Of the numbers below a bound that give something the least one is found. -/
theorem exists_findSome?_range {α : Type} {g : Nat → Option α} {n : Nat} (h : ∃ m < n, ∃ a, g m = some a) :
    ∃ m < n, ∃ a, g m = some a ∧ (List.range n).findSome? g = some a ∧ ∀ j < m, g j = none := by
  induction n with
  | zero =>
    obtain ⟨m, hm, _⟩ := h
    exact absurd hm (Nat.not_lt_zero m)
  | succ n ih =>
    rw [List.range_succ, List.findSome?_append]
    by_cases hbelow : ∃ m < n, ∃ a, g m = some a
    · obtain ⟨m, hm, a, ha, hfound, hfirst⟩ := ih hbelow
      exact ⟨m, Nat.lt_succ_of_lt hm, a, ha, by rw [hfound]; rfl, hfirst⟩
    · have hnone : ∀ j < n, g j = none := fun j hj =>
        Option.eq_none_iff_forall_ne_some.2 fun a ha => hbelow ⟨j, hj, a, ha⟩
      have hfirst : (List.range n).findSome? g = none :=
        List.findSome?_eq_none_iff.2 fun j hj => hnone j (List.mem_range.1 hj)
      obtain ⟨m, hm, a, ha⟩ := h
      obtain rfl : m = n := (Nat.lt_succ_iff_lt_or_eq.1 hm).resolve_left fun hlt => hbelow ⟨m, hlt, a, ha⟩
      exact ⟨m, hm, a, ha, by simp [hfirst, ha], hnone⟩

namespace Binary

variable {x : Binary} {tie : Tie}

/-- The decimal that is meant for a double: it reads back, and no decimal that reads back has fewer
digits, or as few and is nearer. It does not end in a zero. -/
structure IsShortest (x : Binary) (d : Decimal) : Prop where
  readsBack : x.readsBack d = true
  fewest : ∀ a, x.readsBack a = true → ∀ n, a.coeff < 10 ^ n → d.coeff < 10 ^ n
  nearest : ∀ a, x.readsBack a = true → (∀ n, d.coeff < 10 ^ n → a.coeff < 10 ^ n) →
    |d.value - x.value| ≤ |a.value - x.value|
  stripped : d.coeff % 10 ≠ 0

theorem coeff_pos_of_readsBack {d : Decimal} (hx : 0 < x.significand) (h : x.readsBack d = true) : 0 < d.coeff := by
  have hlower : 0 < x.lower := by
    have hpos : 0 < 4 * x.significand - if x.closeBelow then 1 else 2 := by split <;> omega
    exact mul_pos (by exact_mod_cast hpos) (by positivity)
  have hvalue : 0 < d.value := (readsBack_iff.1 h).1.elim hlower.trans fun heq => heq.2 ▸ hlower
  refine Nat.pos_of_ne_zero fun hzero => hvalue.ne' ?_
  rw [Decimal.value, hzero, Nat.cast_zero, zero_mul]

/-- A candidate has as many digits as the double on its grid, or is the next power of ten. -/
theorem coeff_candidate_le {e : Int} {n : Nat} {d : Decimal} (hhigh : x.value < 10 ^ (n + e))
    (h : x.candidate? tie e = some d) : d.coeff ≤ 10 ^ n := by
  obtain ⟨r, hoffset⟩ := x.exists_offset e
  have hten : (0 : ℚ) < 10 ^ e := by positivity
  have hfloor : ((x.floorAt e).1 : ℚ) * 10 ^ e < (10 ^ n : Nat) * 10 ^ e :=
    hoffset.below_le.trans_lt (hhigh.trans_eq (ten_zpow_add n e))
  have hlt : (x.floorAt e).1 < 10 ^ n := by exact_mod_cast (mul_lt_mul_iff_left₀ hten).1 hfloor
  obtain rfl | rfl := (of_candidate? h).1
  · exact hlt.le
  · exact hlt

/-- The search ends with the candidate of the coarsest grid that has one. -/
theorem exists_shortest_eq (hx : x.IsDouble) (tie : Tie) : ∃ m < maxDigits, ∃ d,
    x.candidate? tie (x.scale - 1 - (m : Int)) = some d ∧ x.shortest tie = d.stripZeros (maxDigits + 1) ∧
      ∀ j : Nat, j < m → x.candidate? tie (x.scale - 1 - (j : Int)) = none := by
  have hlow : 10 ^ (16 + (x.scale - 1 - 16)) ≤ x.value := by
    rw [add_sub_cancel]
    exact (scale_spec hx).1
  obtain ⟨m, hm, d, hd, hfound, hfirst⟩ :=
    exists_findSome?_range (g := fun n : Nat => x.candidate? tie (x.scale - 1 - (n : Int))) (n := maxDigits)
      ⟨16, by decide, exists_candidate_seventeen hx hlow tie⟩
  refine ⟨m, hm, d, hd, ?_, hfirst⟩
  rw [shortest, hfound]
  rfl

/-- The decimal written for a double is a shortest one. -/
theorem isShortest_shortest (hx : x.IsDouble) (tie : Tie) : x.IsShortest (x.shortest tie) := by
  obtain ⟨m, hm, d, hd, hshortest, hfirst⟩ := exists_shortest_eq hx tie
  have hback := (of_candidate? hd).2
  have hvalue : (x.shortest tie).value = d.value := by rw [hshortest, value_stripZeros]
  have hlow (n : Nat) : 10 ^ (n + (x.scale - 1 - (n : Int))) ≤ x.value := by
    rw [add_sub_cancel]
    exact (scale_spec hx).1
  have hhigh : x.value < 10 ^ ((m + 1 : Nat) + (x.scale - 1 - (m : Int))) := by
    rw [Nat.cast_succ, add_right_comm, add_sub_cancel, sub_add_cancel]
    exact (scale_spec hx).2
  have hle : d.coeff ≤ 10 ^ (m + 1) := coeff_candidate_le hhigh hd
  have hlt : (x.shortest tie).coeff < 10 ^ (m + 1) := hshortest ▸ coeff_stripZeros_lt hle
  constructor
  case readsBack => rw [readsBack_congr x hvalue, hback]
  case fewest =>
    intro a ha n hn
    cases n with
    | zero => exact absurd (coeff_pos_of_readsBack hx.pos ha) (by omega)
    | succ n =>
      rcases Nat.lt_or_ge n m with hnm | hmn
      · -- a coarser grid would have a candidate
        obtain ⟨d', hd', -⟩ := exists_candidate_of_readsBack hx.pos (hlow n) hn ha tie
        cases (hfirst n hnm).symm.trans hd'
      · exact hlt.trans_le (Nat.pow_le_pow_right (by decide) (Nat.succ_le_succ hmn))
  case nearest =>
    intro a ha hdigits
    obtain ⟨d', hd', hnear⟩ := exists_candidate_of_readsBack hx.pos (hlow m) (hdigits _ hlt) ha tie
    obtain rfl : d = d' := Option.some.inj (hd.symm.trans hd')
    rwa [hvalue]
  case stripped =>
    rw [hshortest]
    refine coeff_stripZeros_mod_ten (coeff_pos_of_readsBack hx.pos hback) ?_
    calc d.coeff ≤ 10 ^ (m + 1) := hle
      _ < 10 ^ (maxDigits + 1) := Nat.pow_lt_pow_right (by decide) (Nat.succ_lt_succ hm)

end Binary

end Quotation.Decimal
