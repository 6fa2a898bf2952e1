import ConfigExpr.Proofs.Number.Logarithms

/-!
Where the rounded logarithm to base ten puts the first digit of a number. Its floor is the place of that
digit or, for a number just below a power of ten, the place of the digit of that power.
-/
namespace ConfigExpr.Binary64
open Number

variable {x : Binary64}

theorem exists_value_eq (units : ℤ) {exponent : ℤ} (few : units.natAbs < 2 ^ 53) (low : -1074 ≤ exponent)
    (nonpos : exponent ≤ 0) : ∃ y : Binary64, y.isFinite = true ∧ y.value = units * 2 ^ exponent := by
  have unit : (0 : ℚ) < 2 ^ exponent := zpow_pos two_pos _
  have small := units_lt_overflowThreshold few nonpos
  have power : ((2 ^ (-exponent).toNat : ℕ) : ℚ) = (2 ^ exponent)⁻¹ := by
    rw [Nat.cast_pow, Nat.cast_ofNat, ← zpow_natCast, Int.toNat_of_nonneg (by omega), zpow_neg]
  have approx : (ofRatio (units < 0) units.natAbs (2 ^ (-exponent).toNat)).Approximates
      (units * 2 ^ exponent) := by
    refine ofRatio_approximates (Nat.two_pow_pos _) ?_ fun nonzero => ?_
    · rw [power, div_inv_eq_mul, abs_mul, abs_of_pos unit, Nat.cast_natAbs, Int.cast_abs]
    · rw [decide_eq_true_eq]
      exact ⟨fun less => mul_neg_of_neg_of_pos (Int.cast_lt_zero.mpr less) unit,
        fun less => Int.cast_lt_zero.mp (neg_of_mul_neg_left less unit.le)⟩
  exact ⟨_, approx.magnitude.finite small, approx.value_eq few low small⟩

theorem exists_magnitude_multiple {n : ℤ} (large : 2 ^ n ≤ x.magnitude) :
    ∃ m : ℤ, x.magnitude = m * 2 ^ (n - 52) := by
  have coarse : n - 52 ≤ x.scale := by
    have := (zpow_lt_zpow_iff_right₀ (by norm_num)).mp (large.trans_lt x.magnitude_lt)
    omega
  have exponent : x.scale = ((x.scale - (n - 52)).toNat : ℤ) + (n - 52) := by omega
  refine ⟨x.significand * 2 ^ (x.scale - (n - 52)).toNat, ?_⟩
  rw [magnitude_eq, exponent, zpow_add₀ two_ne_zero, zpow_natCast, ← exponent]
  push_cast
  ring

theorem exists_multiple {n : ℤ} (large : 2 ^ n ≤ |x.value|) : ∃ m : ℤ, x.value = m * 2 ^ (n - 52) := by
  rw [abs_value] at large
  obtain ⟨m, multiple⟩ := exists_magnitude_multiple large
  rw [value_eq, multiple]
  split
  next => exact ⟨-m, by rw [Int.cast_neg, neg_mul]⟩
  next => exact ⟨m, rfl⟩

theorem add_one_mul_le {unit : ℚ} (positive : 0 < unit) {k m : ℤ} (more : k * unit < m * unit) :
    (k + 1) * unit ≤ m * unit := by
  have steps : k + 1 ≤ m := by exact_mod_cast lt_of_mul_lt_mul_right more positive.le
  exact mul_le_mul_of_nonneg_right (by exact_mod_cast steps) positive.le

namespace Approximates
variable {r : Binary64} {q : ℚ} {n : ℤ}

theorem value_nonneg (approx : r.Approximates q) (nonneg : 0 ≤ q) : 0 ≤ r.value := by
  rcases nonneg.eq_or_lt with rfl | positive
  · have none := approx.magnitude.magnitude_eq_zero (abs_nonneg _) (by rw [abs_zero]; positivity)
    rw [← abs_value, abs_eq_zero] at none
    exact none.ge
  · rw [Binary64.value_eq, if_neg fun negative => positive.not_gt ((approx.sign positive.ne').mp negative)]
    exact r.magnitude_nonneg

section
variable (approx : r.Approximates q) (small : |q| < overflowThreshold) (few : |n| ≤ 400)
include approx small few

theorem nearest_int : |r.value - q| ≤ |n - q| := by
  obtain ⟨low, high⟩ := abs_le.mp few
  obtain ⟨y, finite, value⟩ :=
    exists_value_eq n (by omega) (show -1074 ≤ 0 by norm_num) le_rfl
  rw [zpow_zero, mul_one] at value
  exact value ▸ approx.nearest small finite

theorem lt_add_one (below : q < n + 1 / 4) : r.value < n + 1 := by
  by_contra atLeast
  rw [not_lt] at atLeast
  have near := approx.nearest_int small few
  have distance := (le_abs_self (r.value - q)).trans near
  rcases abs_cases (n - q : ℚ) with ⟨same, -⟩ | ⟨same, -⟩ <;> linarith

theorem sub_le (reached : n ≤ r.value) : n - 2 ^ (-45 : ℤ) ≤ q := by
  obtain ⟨low, high⟩ := abs_le.mp few
  obtain ⟨y, finite, value⟩ := exists_value_eq (n * 2 ^ 44 - 1) (by omega)
    (show -1074 ≤ (-44 : ℤ) by norm_num) (by norm_num)
  have place : y.value = n - 2 * 2 ^ (-45 : ℤ) := by
    rw [value]
    push_cast
    norm_num
    ring
  have near := (le_abs_self (r.value - q)).trans (approx.nearest small finite)
  rw [place] at near
  have positive : (0 : ℚ) < 2 ^ (-45 : ℤ) := zpow_pos two_pos _
  generalize (2 : ℚ) ^ (-45 : ℤ) = unit at *
  rcases abs_cases ((n : ℚ) - 2 * unit - q) with ⟨same, -⟩ | ⟨same, -⟩ <;> linarith

theorem add_self_le (less : r.value < n) : q + q ≤ n + r.value := by
  have near := approx.nearest_int small few
  rcases abs_cases (n - q : ℚ) with ⟨same, -⟩ | ⟨same, -⟩
  · have distance := (neg_abs_le (r.value - q))
    linarith
  · have distance := (neg_abs_le (r.value - q))
    linarith

theorem int_le_value (above : n - 2 ^ (-53 : ℤ) < q) (notZero : n ≠ 0) (notOne : n ≠ 1) :
    n ≤ r.value := by
  by_contra less
  rw [not_le] at less
  have half := approx.add_self_le small few less
  have twice : (2 : ℚ) ^ (-52 : ℤ) = 2 * 2 ^ (-53 : ℤ) := by norm_num
  have tiny : (2 : ℚ) ^ (-52 : ℤ) ≤ 1 := by norm_num
  have near : n - 2 ^ (-52 : ℤ) < r.value := by linarith
  have large : 2 ^ (0 : ℤ) ≤ |r.value| := by
    rw [zpow_zero]
    rcases lt_or_gt_of_ne notZero with negative | positive
    · have most : (n : ℚ) ≤ -1 := by exact_mod_cast (show n ≤ -1 by omega)
      exact le_abs.mpr (.inr (by linarith))
    · have least : (2 : ℚ) ≤ n := by exact_mod_cast (show 2 ≤ n by omega)
      exact le_abs.mpr (.inl (by linarith))
  obtain ⟨m, multiple⟩ := exists_multiple large
  have unit : (0 : ℚ) < 2 ^ (-52 : ℤ) := zpow_pos two_pos _
  have whole : (n : ℚ) = ((n * 2 ^ 52 - 1 : ℤ) + 1) * 2 ^ (-52 : ℤ) := by
    push_cast
    rw [sub_add_cancel, mul_assoc]
    norm_num
  rw [zero_sub] at multiple
  rw [multiple] at less near
  rw [whole, add_one_mul, add_sub_cancel_right] at near
  exact absurd (whole ▸ less) (add_one_mul_le unit near).not_gt

end

theorem one_le_value (approx : r.Approximates q) (small : |q| < overflowThreshold)
    (above : 1 - 2 ^ (-54 : ℤ) < q) : 1 ≤ r.value := by
  by_contra less
  rw [not_le] at less
  have half := approx.add_self_le (n := 1) small (by norm_num) (by exact_mod_cast less)
  have twice : (2 : ℚ) ^ (-53 : ℤ) = 2 * 2 ^ (-54 : ℤ) := by norm_num
  have most : (1 : ℚ) / 2 ≤ 1 - 2 ^ (-53 : ℤ) := by norm_num
  rw [Int.cast_one] at half
  have near : 1 - 2 ^ (-53 : ℤ) < r.value := by linarith
  have large : 2 ^ (-1 : ℤ) ≤ |r.value| := by
    rw [zpow_neg_one, ← one_div]
    exact le_abs.mpr (.inl (most.trans near.le))
  obtain ⟨m, multiple⟩ := exists_multiple large
  have unit : (0 : ℚ) < 2 ^ (-53 : ℤ) := zpow_pos two_pos _
  have whole : (1 : ℚ) = ((2 ^ 53 - 1 : ℤ) + 1) * 2 ^ (-53 : ℤ) := by norm_num
  have exponent : (-1 : ℤ) - 52 = -53 := by norm_num
  rw [exponent] at multiple
  rw [multiple] at less near
  rw [whole, add_one_mul, add_sub_cancel_right] at near
  exact absurd (whole ▸ less) (add_one_mul_le unit near).not_gt

end Approximates

theorem log_bounds {lead : ℤ} (first : LeadsAt x.magnitude lead) :
    (lead : ℝ) ≤ Real.log x.magnitude * (Real.log 10)⁻¹ ∧
      Real.log x.magnitude * (Real.log 10)⁻¹ < lead + 1 := by
  have positive : 0 < Real.log 10 := by linarith [log_ten_bounds.1]
  have cast (n : ℤ) : (((10 : ℚ) ^ n : ℚ) : ℝ) = 10 ^ n := by
    rw [Rat.cast_zpow, Rat.cast_ofNat]
  have low : (10 : ℝ) ^ lead ≤ x.magnitude := cast lead ▸ Rat.cast_le.mpr first.1
  have high : (x.magnitude : ℝ) < 10 ^ (lead + 1) := cast (lead + 1) ▸ Rat.cast_lt.mpr first.2
  have power : (0 : ℝ) < 10 ^ lead := zpow_pos (by norm_num) _
  rw [← div_eq_mul_inv, le_div_iff₀ positive, div_lt_iff₀ positive]
  have lower := Real.log_le_log power low
  have upper := Real.log_lt_log (power.trans_le low) high
  rw [Real.log_zpow] at lower upper
  push_cast at upper
  exact ⟨lower, upper⟩

theorem scale_le (finite : x.isFinite = true) : x.scale ≤ 971 := by
  have field : x.exponentField < 2048 := Nat.mod_lt _ (by decide)
  have other : x.exponentField ≠ 2047 := bne_iff_ne.mp finite
  rw [scale]
  omega

theorem abs_lead_le {lead : ℤ} (finite : x.isFinite = true) (first : LeadsAt x.magnitude lead) :
    |lead| ≤ 399 := by
  have high := x.magnitude_lt.trans_le
    (zpow_le_zpow_right₀ (show (1 : ℚ) ≤ 2 by norm_num) (show x.scale + 53 ≤ 1024 by
      have := scale_le finite
      omega))
  rw [abs_le]
  constructor
  · by_contra small
    have low := x.magnitude_eq_zero_or.resolve_left
      ((zpow_pos (show (0 : ℚ) < 10 by norm_num) lead).trans_le first.1).ne'
    have tiny := (low.trans_lt first.2).trans_le (ten_zpow_le_two_zpow (by omega))
    have := (zpow_lt_zpow_iff_right₀ (by norm_num)).mp tiny
    omega
  · by_contra large
    have huge := (two_zpow_le_ten_zpow (by omega)).trans_lt (first.1.trans_lt high)
    have := (zpow_lt_zpow_iff_right₀ (by norm_num)).mp huge
    omega

theorem sub_le_magnitude {n : ℤ} (positive : 0 < x.magnitude)
    (near : n - 2 ^ (-45 : ℤ) - 2 ^ (-53 : ℤ) < Real.log x.magnitude * (Real.log 10)⁻¹) :
    10 ^ n * (1 - 2 ^ (-43 : ℤ)) ≤ x.magnitude := by
  obtain ⟨low, high⟩ := log_ten_bounds
  have power : (0 : ℝ) < 10 ^ n := zpow_pos (by norm_num) _
  have some : (0 : ℝ) < x.magnitude := Rat.cast_pos.mpr positive
  have base : (0 : ℝ) < Real.log 10 := by linarith
  have tangent := Real.log_le_sub_one_of_pos (div_pos some power)
  rw [Real.log_div some.ne' power.ne', Real.log_zpow] at tangent
  rw [← div_eq_mul_inv, lt_div_iff₀ base, sub_sub, sub_mul] at near
  have ratio : 1 - 2 ^ (-43 : ℤ) ≤ (x.magnitude : ℝ) / 10 ^ n := by
    have slack : ((2 : ℝ) ^ (-45 : ℤ) + 2 ^ (-53 : ℤ)) * Real.log 10 ≤ 2 ^ (-43 : ℤ) :=
      (mul_le_mul_of_nonneg_left high.le (by positivity)).trans (by norm_num)
    generalize ((2 : ℝ) ^ (-45 : ℤ) + 2 ^ (-53 : ℤ)) * Real.log 10 = missing at near slack
    generalize (2 : ℝ) ^ (-43 : ℤ) = most at slack ⊢
    linarith
  rw [le_div_iff₀ power, mul_comm] at ratio
  refine (Rat.cast_le (K := ℝ)).mp ?_
  push_cast
  exact ratio

theorem value_log10_of_magnitude_eq_ten (ten : x.magnitude = 10) : x.log10.value = 1 := by
  have below := x.magnitude_lt
  rw [magnitude_eq] at ten
  have fine : -49 ≤ x.scale := by
    have power : (2 : ℚ) ^ (3 : ℤ) < 2 ^ (x.scale + 53) := by
      rw [magnitude_eq, ten] at below
      exact lt_trans (by norm_num) below
    have := (zpow_lt_zpow_iff_right₀ (by norm_num)).mp power
    omega
  have normal : 2 ^ 52 ≤ x.significand := by
    rw [scale] at fine
    rw [significand, if_neg (by omega)]
    omega
  have scale : x.scale = -49 := by
    refine le_antisymm ?_ fine
    have bits : ((2 ^ 52 : ℕ) : ℚ) ≤ x.significand := Nat.cast_le.mpr normal
    have power : (2 : ℚ) ^ (52 + x.scale) < 2 ^ (4 : ℤ) := by
      rw [zpow_add₀ two_ne_zero]
      refine (mul_le_mul_of_nonneg_right ?_ (zpow_pos two_pos _).le).trans_lt
        (ten.trans_lt (by norm_num))
      exact_mod_cast bits
    have := (zpow_lt_zpow_iff_right₀ (by norm_num)).mp power
    omega
  have significand : x.significand = 10 * 2 ^ 49 := by
    rw [scale, zpow_neg, ← div_eq_mul_inv, div_eq_iff (by norm_num)] at ten
    exact_mod_cast ten
  have same : x.log10 = log10 ⟨0x4024000000000000⟩ := by
    rw [log10, log10, splitExponent, splitExponent, numerator, numerator, denominator, denominator,
      scale, significand]
    rfl
  have one : log10 ⟨0x4024000000000000⟩ = ⟨0x3FF0000000000000⟩ := by decide +kernel
  have unit : (⟨0x3FF0000000000000⟩ : Binary64).significand = 2 ^ 52 := by decide
  have point : (⟨0x3FF0000000000000⟩ : Binary64).scale = -52 := by decide
  rw [same, one, value_eq, if_neg (by decide), magnitude_eq, unit, point]
  norm_num

theorem one_add_le_log {q : ℝ} (more : 10 + 2 ^ (-49 : ℤ) ≤ q) :
    1 + 2 ^ (-54 : ℤ) ≤ Real.log q * (Real.log 10)⁻¹ := by
  obtain ⟨low, high⟩ := log_ten_bounds
  have base : 0 < Real.log 10 := by linarith
  have next : (0 : ℝ) < 10 + 2 ^ (-49 : ℤ) := by positivity
  have growth : Real.log (10 + 2 ^ (-49 : ℤ)) ≤ Real.log q := Real.log_le_log next more
  have tangent := Real.one_sub_inv_le_log_of_pos (div_pos next (show (0 : ℝ) < 10 by norm_num))
  rw [Real.log_div next.ne' (by norm_num)] at tangent
  have step : 2 ^ (-54 : ℤ) * (2.302586 : ℝ) ≤ 1 - ((10 + 2 ^ (-49 : ℤ)) / 10)⁻¹ := by norm_num
  have scaled : 2 ^ (-54 : ℤ) * Real.log 10 ≤ 2 ^ (-54 : ℤ) * 2.302586 :=
    mul_le_mul_of_nonneg_left high.le (by positivity)
  rw [← div_eq_mul_inv, le_div_iff₀ base, add_mul, one_mul]
  have total := (scaled.trans step).trans tangent
  exact (add_le_of_le_sub_left total).trans growth

theorem log10_nonneg (nonzero : x.isZero = false) (one : 1 ≤ x.magnitude) : 0 ≤ x.log10.value := by
  obtain ⟨-, -, large⟩ := split_bounds nonzero
  obtain ⟨power, ordered⟩ := large one
  have power : 0 ≤ (ofInt x.splitExponent).value :=
    (ofInt_approximates _).value_nonneg (Int.cast_nonneg power)
  have factor : 0 ≤ (logOfRatio x.splitNumerator x.splitDenominator).value := by
    refine (logOfRatio_approximates _ _).value_nonneg ?_
    rw [signedFixedLog, if_neg ordered.not_gt]
    positivity
  have constant : 0 ≤ log10OfE.value := by
    rw [value_log10OfE]
    positivity
  have twoHigh : 0 ≤ log10OfTwoHigh.value := by
    rw [value_log10OfTwoHigh]
    positivity
  have twoLow : 0 ≤ log10OfTwoLow.value := by
    rw [value_log10OfTwoLow]
    positivity
  have low : 0 ≤ x.lowPart.value := (add_approximates _ _).value_nonneg
    (add_nonneg ((mul_approximates _ _).value_nonneg (mul_nonneg power twoLow))
      ((mul_approximates _ _).value_nonneg (mul_nonneg constant factor)))
  have high : 0 ≤ x.highPart.value :=
    (mul_approximates _ _).value_nonneg (mul_nonneg power twoHigh)
  exact x.log10_approximates.value_nonneg (add_nonneg low high)

section
variable {lead : ℤ} (finite : x.isFinite = true) (nonzero : x.isZero = false)
  (first : LeadsAt x.magnitude lead)
include finite nonzero first

theorem log10_sum_bounds : lead - 2 ^ (-53 : ℤ) < x.lowPart.value + x.highPart.value ∧
    x.lowPart.value + x.highPart.value < lead + 1 + 2 ^ (-53 : ℤ) := by
  obtain ⟨low, high⟩ := log_bounds first
  obtain ⟨below, above⟩ := abs_lt.mp (log10_sum_near finite nonzero)
  generalize x.lowPart.value + x.highPart.value = sum at *
  constructor
  · refine (Rat.cast_lt (K := ℝ)).mp ?_
    rw [Rat.cast_sub, cast_two_zpow, Rat.cast_intCast]
    generalize (2 : ℝ) ^ (-53 : ℤ) = unit at *
    linarith
  · refine (Rat.cast_lt (K := ℝ)).mp ?_
    rw [Rat.cast_add, Rat.cast_add, cast_two_zpow, Rat.cast_intCast, Rat.cast_one]
    generalize (2 : ℝ) ^ (-53 : ℤ) = unit at *
    linarith

theorem log10_sum_lt_overflowThreshold :
    |x.lowPart.value + x.highPart.value| < overflowThreshold := by
  obtain ⟨low, high⟩ := log10_sum_bounds finite nonzero first
  obtain ⟨least, most⟩ := abs_le.mp (abs_lead_le finite first)
  have least : (-399 : ℚ) ≤ lead := by exact_mod_cast least
  have most : (lead : ℚ) ≤ 399 := by exact_mod_cast most
  have tiny : (2 : ℚ) ^ (-53 : ℤ) ≤ 1 := by norm_num
  refine lt_overflowThreshold (n := 9) (abs_lt.mpr ⟨?_, ?_⟩) (by norm_num)
  · norm_num only
    linarith
  · norm_num only
    linarith

theorem lead_le_log10 : lead ≤ x.log10.value := by
  have small := log10_sum_lt_overflowThreshold finite nonzero first
  have approx := x.log10_approximates
  obtain ⟨above, -⟩ := log10_sum_bounds finite nonzero first
  by_cases isZero : lead = 0
  · subst isZero
    exact_mod_cast log10_nonneg nonzero (by simpa using first.1)
  by_cases isOne : lead = 1
  · subst isOne
    have low : 10 ≤ x.magnitude := by simpa using first.1
    rw [Int.cast_one]
    rcases low.eq_or_lt with ten | more
    · exact (value_log10_of_magnitude_eq_ten ten.symm).ge
    · have large : 2 ^ (3 : ℤ) ≤ x.magnitude := le_trans (by norm_num) low
      obtain ⟨m, multiple⟩ := exists_magnitude_multiple large
      have unit : (0 : ℚ) < 2 ^ (-49 : ℤ) := zpow_pos two_pos _
      have exponent : (3 : ℤ) - 52 = -49 := by norm_num
      have whole : (10 : ℚ) = (10 * 2 ^ 49 : ℤ) * 2 ^ (-49 : ℤ) := by norm_num
      rw [multiple, exponent, whole] at more
      have next : 10 + 2 ^ (-49 : ℤ) ≤ x.magnitude := by
        rw [multiple, exponent, whole, ← add_one_mul]
        exact add_one_mul_le unit more
      rw [← Rat.cast_le (K := ℝ), Rat.cast_add, cast_two_zpow, Rat.cast_ofNat] at next
      have clear := one_add_le_log next
      obtain ⟨below, -⟩ := abs_lt.mp (log10_sum_near finite nonzero)
      have twice : (2 : ℝ) ^ (-53 : ℤ) = 2 * 2 ^ (-54 : ℤ) := by norm_num
      refine approx.one_le_value small ((Rat.cast_lt (K := ℝ)).mp ?_)
      rw [Rat.cast_sub, cast_two_zpow, Rat.cast_one]
      rw [twice] at below
      generalize (2 : ℝ) ^ (-54 : ℤ) = half at *
      linarith
  · exact approx.int_le_value small ((abs_lead_le finite first).trans (by norm_num)) above isZero isOne

theorem log10_floor : x.log10.floor = lead ∨
    x.log10.floor = lead + 1 ∧ 10 ^ (lead + 1) * (1 - 2 ^ (-43 : ℤ)) ≤ x.magnitude := by
  have small := log10_sum_lt_overflowThreshold finite nonzero first
  have approx := x.log10_approximates
  obtain ⟨-, below⟩ := log10_sum_bounds finite nonzero first
  have low := lead_le_log10 finite nonzero first
  have few : |lead + 1| ≤ 400 := by
    obtain ⟨least, most⟩ := abs_le.mp (abs_lead_le finite first)
    rw [abs_le]
    omega
  rw [floor_eq, Int.floor_eq_iff, Int.floor_eq_iff]
  rcases lt_or_ge x.log10.value (lead + 1 : ℤ) with less | reached
  · push_cast at less
    exact .inl ⟨low, less⟩
  · have high := approx.lt_add_one small few (by
      push_cast
      refine below.trans ?_
      norm_num)
    refine .inr ⟨⟨reached, high⟩, ?_⟩
    have close := approx.sub_le small few reached
    obtain ⟨-, above⟩ := abs_lt.mp (log10_sum_near finite nonzero)
    refine sub_le_magnitude (magnitude_pos nonzero) ?_
    rw [← Rat.cast_le (K := ℝ), Rat.cast_sub, cast_two_zpow, Rat.cast_intCast] at close
    generalize (2 : ℝ) ^ (-45 : ℤ) = most at *
    generalize (2 : ℝ) ^ (-53 : ℤ) = unit at *
    linarith

end

end ConfigExpr.Binary64
