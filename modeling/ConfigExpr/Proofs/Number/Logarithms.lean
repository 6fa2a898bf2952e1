import ConfigExpr.Proofs.Number.Arithmetic
import ConfigExpr.Proofs.Number.LogarithmSeries

/-!
How far the logarithm to base ten is from the exact one. Before the last sum all roundings together
move it by less than half the distance of the floats from one to two, so its floor is the place of the
first digit of the number, unless the number is so close below a power of ten that the last sum is
rounded up to the exponent of that power.
-/
namespace ConfigExpr.Binary64
open Number

theorem cast_two_zpow (n : ℤ) : (((2 : ℚ) ^ n : ℚ) : ℝ) = 2 ^ n := by
  rw [Rat.cast_zpow, Rat.cast_ofNat]

theorem Approximates.abs_cast_sub_le {x : Binary64} {q : ℚ} (approx : x.Approximates q) {n : ℤ}
    (below : |(q : ℝ)| < 2 ^ n) (low : -1021 ≤ n) (high : n ≤ 1023) :
    |(x.value : ℝ) - q| ≤ 2 ^ (n - 54) := by
  rw [← cast_two_zpow, ← Rat.cast_abs, Rat.cast_lt] at below
  rw [← cast_two_zpow, ← Rat.cast_sub, ← Rat.cast_abs, Rat.cast_le]
  exact approx.abs_sub_le below low high

theorem fixedLog_comm (m n : ℕ) : fixedLog m n = fixedLog n m := by
  rw [fixedLog, fixedLog, max_comm, min_comm, Nat.add_comm]

theorem log_two_bounds :
    (4350955369971217654477563090224794165364344896676135745014 : ℝ) ≤ Real.log 2 * 2 ^ 192 ∧
      Real.log 2 * 2 ^ 192 ≤ (4350955369971217654477563090224794165364344896676135745400 : ℝ) := by
  have fixed : fixedLog 2 1 = 4350955369971217654477563090224794165364344896676135745014 := by
    decide +kernel
  obtain ⟨low, high⟩ := fixedLog_near 2 1 (by decide) (by decide) (by decide)
  rw [fixed, unity, fixedBits, Nat.cast_one, div_one] at low high
  push_cast at low high
  exact ⟨low, by linarith⟩

theorem log_five_quarters_bounds :
    (1400694773194772906941746467053012168950389224798956667286 : ℝ) ≤ Real.log (5 / 4) * 2 ^ 192 ∧
      Real.log (5 / 4) * 2 ^ 192 ≤ (1400694773194772906941746467053012168950389224798956667672 : ℝ) := by
  have fixed : fixedLog 5 4 = 1400694773194772906941746467053012168950389224798956667286 := by
    decide +kernel
  obtain ⟨low, high⟩ := fixedLog_near 5 4 (by decide) (by decide) (by decide)
  rw [fixed, unity, fixedBits] at low high
  push_cast at low high
  exact ⟨low, by linarith⟩

theorem log_ten_eq : Real.log 10 = 3 * Real.log 2 + Real.log (5 / 4) := by
  have split : (10 : ℝ) = 2 ^ 3 * (5 / 4) := by norm_num
  rw [split, Real.log_mul (by norm_num) (by norm_num), Real.log_pow, Nat.cast_ofNat]

theorem log_ten_bounds : (2.302585 : ℝ) < Real.log 10 ∧ Real.log 10 < 2.302586 := by
  obtain ⟨twoLow, twoHigh⟩ := log_two_bounds
  obtain ⟨partLow, partHigh⟩ := log_five_quarters_bounds
  rw [log_ten_eq]
  constructor
  · linarith
  · linarith

theorem fixedLog_lt {high low : ℕ} (positive : 0 < low) (ordered : low ≤ high)
    (double : high ≤ 2 * low) : (fixedLog high low : ℝ) ≤ 3 / 4 * unity := by
  have some : (0 : ℝ) < low := Nat.cast_pos.mpr positive
  have ratio : (high : ℝ) / low ≤ 2 := by
    rw [div_le_iff₀ some]
    exact_mod_cast double
  have more : (0 : ℝ) < high / low := div_pos (Nat.cast_pos.mpr (positive.trans_le ordered)) some
  have two := log_two_bounds.2
  have small : Real.log (high / low) ≤ 3 / 4 := (Real.log_le_log more ratio).trans (by linarith)
  exact (fixedLog_near high low positive ordered double).1.trans
    (mul_le_mul_of_nonneg_right small unity_pos.le)

/-- What a ratio between a half and two gives before it is rounded. -/
def signedFixedLog (m n : ℕ) : ℚ :=
  if m < n then -(fixedLog m n / 2 ^ fixedBits) else fixedLog m n / 2 ^ fixedBits

theorem logOfRatio_approximates (m n : ℕ) : (logOfRatio m n).Approximates (signedFixedLog m n) := by
  rw [logOfRatio_eq]
  have nonneg : (0 : ℚ) ≤ fixedLog m n / 2 ^ fixedBits := by positivity
  refine ofRatio_approximates (Nat.two_pow_pos _) ?_ fun nonzero => ?_
  · rw [Nat.cast_pow, Nat.cast_ofNat, signedFixedLog]
    split
    next => rw [abs_neg, abs_of_nonneg nonneg]
    next => rw [abs_of_nonneg nonneg]
  · rw [signedFixedLog] at nonzero ⊢
    by_cases less : m < n
    · rw [if_pos less] at nonzero ⊢
      have positive := lt_of_le_of_ne nonneg (Ne.symm (neg_ne_zero.mp nonzero))
      exact ⟨fun _ => neg_neg_of_pos positive, fun _ => decide_eq_true less⟩
    · rw [if_neg less]
      exact ⟨fun more => absurd (of_decide_eq_true more) less, fun negative => absurd negative nonneg.not_gt⟩

section
variable {m n : ℕ} (mPositive : 0 < m) (nPositive : 0 < n) (mLess : m ≤ 2 * n) (nLess : n ≤ 2 * m)
include mPositive nPositive mLess nLess

theorem signedFixedLog_near : |(signedFixedLog m n : ℝ) - Real.log (m / n)| ≤ 2 ^ (-183 : ℤ) ∧
    |(signedFixedLog m n : ℝ)| ≤ 3 / 4 := by
  have unit := unity_pos
  have cast (k : ℕ) : (((k : ℚ) / 2 ^ fixedBits : ℚ) : ℝ) = k / unity := by
    rw [Rat.cast_div, Rat.cast_natCast, Rat.cast_pow, Rat.cast_ofNat, unity]
  have few : 386 / unity ≤ 2 ^ (-183 : ℤ) := by
    rw [unity, fixedBits]
    norm_num
  have close {high low : ℕ} (positive : 0 < low) (ordered : low ≤ high) (double : high ≤ 2 * low) :
      |(fixedLog high low : ℝ) / unity - Real.log (high / low)| ≤ 2 ^ (-183 : ℤ) ∧
        |(fixedLog high low : ℝ) / unity| ≤ 3 / 4 := by
    obtain ⟨below, above⟩ := fixedLog_near high low positive ordered double
    have bound := fixedLog_lt positive ordered double
    rw [← div_le_iff₀ unit] at below bound
    rw [← le_div_iff₀ unit, add_div] at above
    constructor
    · rw [abs_sub_comm, abs_of_nonneg (by linarith)]
      linarith
    · rwa [abs_of_nonneg (by positivity)]
  rw [signedFixedLog]
  split
  next less =>
    obtain ⟨near, bound⟩ := close mPositive less.le nLess
    have flipped : Real.log (m / n) = -Real.log (n / m) := by
      rw [← Real.log_inv, inv_div]
    rw [fixedLog_comm, flipped, Rat.cast_neg, cast, neg_sub_neg, abs_sub_comm, abs_neg]
    exact ⟨near, bound⟩
  next atLeast =>
    rw [cast]
    exact close nPositive (not_lt.mp atLeast) mLess

theorem logOfRatio_near :
    |((logOfRatio m n).value : ℝ) - Real.log (m / n)| ≤ 2 ^ (-54 : ℤ) + 2 ^ (-183 : ℤ) := by
  obtain ⟨near, bound⟩ := signedFixedLog_near mPositive nPositive mLess nLess
  have below : |(signedFixedLog m n : ℝ)| < 2 ^ (0 : ℤ) := by
    rw [zpow_zero]
    linarith
  have rounded := (logOfRatio_approximates m n).abs_cast_sub_le below (by norm_num) (by norm_num)
  exact (abs_sub_le _ _ _).trans (add_le_add rounded near)

end

theorem value_log10OfE : log10OfE.value = 7823553867474190 * 2 ^ (-54 : ℤ) := by
  have negative : ¬ log10OfE.isNegative = true := by decide
  have significand : log10OfE.significand = 7823553867474190 := by decide
  have scale : log10OfE.scale = -54 := by decide
  rw [value_eq, if_neg negative, magnitude_eq, significand, scale, Nat.cast_ofNat]

theorem value_log10OfTwoHigh : log10OfTwoHigh.value = 661971961083 * 2 ^ (-41 : ℤ) := by
  have negative : ¬ log10OfTwoHigh.isNegative = true := by decide
  have significand : log10OfTwoHigh.significand = 661971961083 * 2 ^ 13 := by decide
  have scale : log10OfTwoHigh.scale = -54 := by decide
  rw [value_eq, if_neg negative, magnitude_eq, significand, scale]
  norm_num

theorem value_log10OfTwoLow : log10OfTwoLow.value = 7317194349292342 * 2 ^ (-94 : ℤ) := by
  have negative : ¬ log10OfTwoLow.isNegative = true := by decide
  have significand : log10OfTwoLow.significand = 7317194349292342 := by decide
  have scale : log10OfTwoLow.scale = -94 := by decide
  rw [value_eq, if_neg negative, magnitude_eq, significand, scale, Nat.cast_ofNat]

theorem abs_sub_mul_inv_le {a b l bound : ℝ} (large : 2 ≤ l) (near : |a * l - b| ≤ 2 * bound) :
    |a - b * l⁻¹| ≤ bound := by
  have positive : 0 < l := by linarith
  have split : a - b * l⁻¹ = (a * l - b) / l := by
    field_simp
  rw [split, abs_div, abs_of_pos positive, div_le_iff₀ positive]
  have nonneg : 0 ≤ bound := by linarith [abs_nonneg (a * l - b)]
  have scaled := mul_le_mul_of_nonneg_left large nonneg
  linarith

theorem log10OfE_near : |(log10OfE.value : ℝ) - 1 * (Real.log 10)⁻¹| ≤ 2 ^ (-55 : ℤ) := by
  obtain ⟨twoLow, twoHigh⟩ := log_two_bounds
  obtain ⟨partLow, partHigh⟩ := log_five_quarters_bounds
  refine abs_sub_mul_inv_le (by linarith [log_ten_bounds.1]) ?_
  rw [value_log10OfE, log_ten_eq, abs_le]
  push_cast
  norm_num
  constructor
  · linarith
  · linarith

theorem log10OfTwo_near :
    |(log10OfTwoHigh.value + log10OfTwoLow.value : ℝ) - Real.log 2 * (Real.log 10)⁻¹| ≤
      2 ^ (-90 : ℤ) := by
  obtain ⟨twoLow, twoHigh⟩ := log_two_bounds
  obtain ⟨partLow, partHigh⟩ := log_five_quarters_bounds
  refine abs_sub_mul_inv_le (by linarith [log_ten_bounds.1]) ?_
  rw [value_log10OfTwoHigh, value_log10OfTwoLow, log_ten_eq, abs_le]
  push_cast
  norm_num
  constructor
  · linarith
  · linarith

section
variable (x : Binary64)

def firstBit : ℤ :=
  x.scale + x.significand.log2

def splitNumerator : ℕ :=
  x.numerator * 2 ^ (-x.splitExponent).toNat

def splitDenominator : ℕ :=
  x.denominator * 2 ^ x.splitExponent.toNat

/-- The sum without the leading bits of the logarithm of two. -/
def lowPart : Binary64 :=
  add (mul (ofInt x.splitExponent) log10OfTwoLow)
    (mul log10OfE (logOfRatio x.splitNumerator x.splitDenominator))

def highPart : Binary64 :=
  mul (ofInt x.splitExponent) log10OfTwoHigh

theorem log10_eq : x.log10 = add x.lowPart x.highPart :=
  rfl

theorem log10_approximates : x.log10.Approximates (x.lowPart.value + x.highPart.value) :=
  x.log10_eq ▸ add_approximates x.lowPart x.highPart

end

variable {x : Binary64}

theorem firstBit_bounds (nonzero : x.isZero = false) :
    2 ^ x.firstBit ≤ x.magnitude ∧ x.magnitude < 2 ^ (x.firstBit + 1) := by
  have some := significand_pos nonzero
  have unit : (0 : ℚ) < 2 ^ x.scale := zpow_pos two_pos _
  have low : ((2 ^ x.significand.log2 : ℕ) : ℚ) ≤ x.significand :=
    Nat.cast_le.mpr (Nat.log2_self_le some.ne')
  have high : (x.significand : ℚ) < ((2 ^ (x.significand.log2 + 1) : ℕ) : ℚ) :=
    Nat.cast_lt.mpr Nat.lt_log2_self
  have next : x.firstBit + 1 = x.scale + (x.significand.log2 + 1 : ℕ) := by
    rw [firstBit]
    push_cast
    ring
  rw [next, firstBit, magnitude_eq, zpow_add₀ two_ne_zero, zpow_add₀ two_ne_zero, zpow_natCast,
    zpow_natCast, mul_comm (x.significand : ℚ)]
  push_cast at low high
  exact ⟨mul_le_mul_of_nonneg_left low unit.le, mul_lt_mul_of_pos_left high unit⟩

theorem split_ratio (x : Binary64) : (x.splitNumerator : ℚ) / x.splitDenominator =
    x.magnitude / 2 ^ x.splitExponent := by
  rw [splitNumerator, splitDenominator, ← pow_toNat_div two_ne_zero x.splitExponent,
    div_div_eq_mul_div, magnitude, div_mul_eq_mul_div, div_div]
  push_cast
  rfl

theorem splitDenominator_pos (x : Binary64) : 0 < x.splitDenominator :=
  Nat.mul_pos x.denominator_pos (Nat.two_pow_pos _)

theorem splitNumerator_pos (nonzero : x.isZero = false) : 0 < x.splitNumerator :=
  Nat.mul_pos (numerator_pos nonzero) (Nat.two_pow_pos _)

theorem split_bounds (nonzero : x.isZero = false) :
    x.splitNumerator ≤ 2 * x.splitDenominator ∧ x.splitDenominator ≤ 2 * x.splitNumerator ∧
      (1 ≤ x.magnitude → 0 ≤ x.splitExponent ∧ x.splitDenominator ≤ x.splitNumerator) := by
  have bottom : (0 : ℚ) < x.splitDenominator := Nat.cast_pos.mpr x.splitDenominator_pos
  have unit : (0 : ℚ) < 2 ^ x.splitExponent := zpow_pos two_pos _
  obtain ⟨low, high⟩ := firstBit_bounds nonzero
  have ratio := split_ratio x
  have leading : x.splitExponent = if x.firstBit < 0 then x.firstBit + 1 else x.firstBit := rfl
  have double {m n : ℕ} (positive : (0 : ℚ) < n) (bound : (m : ℚ) / n ≤ 2) : m ≤ 2 * n := by
    rw [div_le_iff₀ positive] at bound
    exact_mod_cast bound
  have top : (0 : ℚ) < x.splitNumerator := Nat.cast_pos.mpr (splitNumerator_pos nonzero)
  have flipped : (x.splitDenominator : ℚ) / x.splitNumerator = 2 ^ x.splitExponent / x.magnitude := by
    rw [← inv_div, ratio, inv_div]
  by_cases below : x.firstBit < 0
  · rw [if_pos below] at leading
    have next : (2 : ℚ) ^ x.splitExponent = 2 * 2 ^ x.firstBit := by
      rw [leading, zpow_add_one₀ two_ne_zero, mul_comm]
    refine ⟨double bottom ?_, double top ?_, fun one => ?_⟩
    · rw [ratio, div_le_iff₀ unit]
      rw [leading] at unit ⊢
      linarith
    · rw [flipped, div_le_iff₀ (magnitude_pos nonzero), next]
      linarith
    · have small : (2 : ℚ) ^ (x.firstBit + 1) ≤ 2 ^ (0 : ℤ) :=
        zpow_le_zpow_right₀ (by norm_num) (by omega)
      rw [zpow_zero] at small
      linarith
  · rw [if_neg below] at leading
    have next : (2 : ℚ) ^ (x.firstBit + 1) = 2 * 2 ^ x.splitExponent := by
      rw [leading, zpow_add_one₀ two_ne_zero, mul_comm]
    rw [← leading] at low
    refine ⟨double bottom ?_, double top ?_, fun _ => ⟨by omega, ?_⟩⟩
    · rw [ratio, div_le_iff₀ unit]
      linarith
    · rw [flipped, div_le_iff₀ (magnitude_pos nonzero)]
      linarith
    · have atLeast : 1 ≤ (x.splitNumerator : ℚ) / x.splitDenominator := by
        rwa [ratio, one_le_div unit]
      rw [one_le_div bottom] at atLeast
      exact_mod_cast atLeast

theorem abs_splitExponent_le (finite : x.isFinite = true) : |x.splitExponent| ≤ 1100 := by
  have leading : x.splitExponent = if x.firstBit < 0 then x.firstBit + 1 else x.firstBit := rfl
  have bits : x.significand.log2 < 53 := by
    rcases Nat.eq_zero_or_pos x.significand with none | some
    · rw [none]
      decide
    · exact (Nat.log2_lt some.ne').mpr x.significand_lt
  have low := x.le_scale
  have high : x.scale ≤ 971 := by
    have field : x.exponentField < 2048 := Nat.mod_lt _ (by decide)
    have other : x.exponentField ≠ 2047 := bne_iff_ne.mp finite
    rw [scale]
    omega
  rw [abs_le, leading]
  rw [firstBit]
  split <;> omega

theorem units_lt_overflowThreshold {units exponent : ℤ} (few : units.natAbs < 2 ^ 53)
    (nonpos : exponent ≤ 0) : |(units : ℚ) * 2 ^ exponent| < overflowThreshold := by
  refine lt_overflowThreshold (n := 53) ?_ (by norm_num)
  have below : |(units : ℚ)| < 2 ^ (53 : ℤ) := by
    rw [← Int.cast_abs, ← Nat.cast_natAbs]
    exact_mod_cast few
  have fraction : (2 : ℚ) ^ exponent ≤ 1 := zpow_le_one_of_nonpos₀ (by norm_num) nonpos
  rw [abs_mul, abs_of_pos (zpow_pos two_pos exponent : (0 : ℚ) < 2 ^ exponent)]
  exact (mul_le_of_le_one_right (abs_nonneg _) fraction).trans_lt below

theorem value_ofInt {n : ℤ} (few : n.natAbs < 2 ^ 53) : (ofInt n).value = n := by
  have approx := ofInt_approximates n
  have whole : (n : ℚ) = n * 2 ^ (0 : ℤ) := by rw [zpow_zero, mul_one]
  rw [whole] at approx ⊢
  exact approx.value_eq few (by norm_num) (units_lt_overflowThreshold few le_rfl)

theorem highPart_value (finite : x.isFinite = true) :
    x.highPart.value = x.splitExponent * log10OfTwoHigh.value := by
  obtain ⟨low, high⟩ := abs_le.mp (abs_splitExponent_le finite)
  have approx := mul_approximates (ofInt x.splitExponent) log10OfTwoHigh
  have product : (x.splitExponent : ℚ) * (661971961083 * 2 ^ (-41 : ℤ)) =
      (x.splitExponent * 661971961083 : ℤ) * 2 ^ (-41 : ℤ) := by
    push_cast
    ring
  rw [value_ofInt (by omega), value_log10OfTwoHigh, product] at approx
  have few : (x.splitExponent * 661971961083).natAbs < 2 ^ 53 := by omega
  rw [highPart, approx.value_eq few (by norm_num) (units_lt_overflowThreshold few (by norm_num)),
    value_log10OfTwoHigh, product]

theorem log_magnitude (nonzero : x.isZero = false) : Real.log x.magnitude =
    Real.log (x.splitNumerator / x.splitDenominator) + x.splitExponent * Real.log 2 := by
  have top : (0 : ℝ) < x.splitNumerator := Nat.cast_pos.mpr (splitNumerator_pos nonzero)
  have bottom : (0 : ℝ) < x.splitDenominator := Nat.cast_pos.mpr x.splitDenominator_pos
  have ratio := congrArg (Rat.cast : ℚ → ℝ) (split_ratio x)
  rw [Rat.cast_div, Rat.cast_div, Rat.cast_natCast, Rat.cast_natCast, Rat.cast_zpow,
    Rat.cast_ofNat] at ratio
  have unit : (2 : ℝ) ^ x.splitExponent ≠ 0 := (zpow_pos two_pos _).ne'
  have whole : (x.magnitude : ℝ) =
      x.splitNumerator / x.splitDenominator * 2 ^ x.splitExponent := by
    rw [ratio, div_mul_cancel₀ _ unit]
  rw [whole, Real.log_mul (div_pos top bottom).ne' unit, Real.log_zpow]

theorem abs_product_sub_le {product a b a' b' unit : ℝ} (rounded : |product - a * b| ≤ unit)
    (aNear : |a - a'| ≤ unit) (bNear : |b - b'| ≤ 2.001 * unit) (aBound : |a| ≤ 0.4343)
    (bBound : |b'| ≤ 0.751) : |product - b' * a'| ≤ 2.63 * unit := by
  have nonneg : 0 ≤ unit := (abs_nonneg _).trans rounded
  have left : |a * (b - b')| ≤ 0.4343 * (2.001 * unit) := by
    rw [abs_mul]
    exact mul_le_mul aBound bNear (abs_nonneg _) (by norm_num)
  have right : |(a - a') * b'| ≤ unit * 0.751 := by
    rw [abs_mul]
    exact mul_le_mul aNear bBound (abs_nonneg _) nonneg
  have split : product - b' * a' = (product - a * b) + (a * (b - b') + (a - a') * b') := by ring
  rw [split]
  have outer := abs_add_le (product - a * b) (a * (b - b') + (a - a') * b')
  have inner := abs_add_le (a * (b - b')) ((a - a') * b')
  linarith

theorem factor_near (nonzero : x.isZero = false) :
    let factor := logOfRatio x.splitNumerator x.splitDenominator
    let exact := Real.log (x.splitNumerator / x.splitDenominator)
    |((mul log10OfE factor).value : ℝ) - exact * (Real.log 10)⁻¹| ≤ 2.63 * 2 ^ (-55 : ℤ) ∧
      |((mul log10OfE factor).value : ℝ)| ≤ 0.4 := by
  intro factor exact
  obtain ⟨numeratorLess, denominatorLess, -⟩ := split_bounds nonzero
  have top := splitNumerator_pos nonzero
  have bottom := x.splitDenominator_pos
  have near : |(factor.value : ℝ) - exact| ≤ 2 ^ (-54 : ℤ) + 2 ^ (-183 : ℤ) :=
    logOfRatio_near top bottom numeratorLess denominatorLess
  obtain ⟨fixedNear, fixedBound⟩ := signedFixedLog_near top bottom numeratorLess denominatorLess
  generalize (signedFixedLog x.splitNumerator x.splitDenominator : ℝ) = fixed at fixedNear fixedBound
  have rest : (2 : ℝ) ^ (-183 : ℤ) ≤ 0.001 * 2 ^ (-55 : ℤ) := by norm_num
  have twice : (2 : ℝ) ^ (-54 : ℤ) = 2 * 2 ^ (-55 : ℤ) := by norm_num
  have tiny : (2 : ℝ) ^ (-55 : ℤ) ≤ 0.0001 := by norm_num
  have factorNear : |(factor.value : ℝ) - exact| ≤ 2.001 * 2 ^ (-55 : ℤ) := near.trans (by linarith)
  have exactBound : |exact| ≤ 0.751 := by
    have triangle := abs_sub_abs_le_abs_sub exact fixed
    rw [abs_sub_comm] at triangle
    exact (sub_le_iff_le_add.mp (triangle.trans fixedNear)).trans (by linarith)
  have factorBound : |(factor.value : ℝ)| ≤ 0.752 := by
    have triangle := abs_sub_abs_le_abs_sub (factor.value : ℝ) exact
    exact (sub_le_iff_le_add.mp (triangle.trans factorNear)).trans (by linarith)
  have constant : |(log10OfE.value : ℝ)| ≤ 0.4343 := by
    rw [value_log10OfE, abs_le]
    push_cast
    norm_num
  have product : |((log10OfE.value * factor.value : ℚ) : ℝ)| ≤ 0.3266 := by
    rw [Rat.cast_mul, abs_mul]
    exact (mul_le_mul constant factorBound (abs_nonneg _) (by norm_num)).trans (by norm_num)
  have below : |((log10OfE.value * factor.value : ℚ) : ℝ)| < 2 ^ (-1 : ℤ) :=
    product.trans_lt (by norm_num)
  have rounded : |((mul log10OfE factor).value : ℝ) - (log10OfE.value * factor.value : ℚ)| ≤
      2 ^ (-55 : ℤ) :=
    (mul_approximates log10OfE factor).abs_cast_sub_le below (by norm_num) (by norm_num)
  constructor
  · rw [Rat.cast_mul] at rounded
    have constantNear := log10OfE_near
    rw [one_mul] at constantNear
    exact abs_product_sub_le rounded constantNear factorNear constant exactBound
  · have triangle := abs_sub_abs_le_abs_sub ((mul log10OfE factor).value : ℝ)
      (log10OfE.value * factor.value : ℚ)
    exact (sub_le_iff_le_add.mp (triangle.trans rounded)).trans (by linarith)

theorem restPart_near (finite : x.isFinite = true) :
    |((mul (ofInt x.splitExponent) log10OfTwoLow).value : ℝ) -
        x.splitExponent * log10OfTwoLow.value| ≤ 2 ^ (-84 : ℤ) ∧
      |((mul (ofInt x.splitExponent) log10OfTwoLow).value : ℝ)| ≤ 2 ^ (-29 : ℤ) := by
  have bound := abs_splitExponent_le finite
  obtain ⟨low, high⟩ := abs_le.mp bound
  have approx := mul_approximates (ofInt x.splitExponent) log10OfTwoLow
  rw [value_ofInt (by omega)] at approx
  have size : |(x.splitExponent : ℝ)| ≤ 1100 := by exact_mod_cast bound
  have few : |(log10OfTwoLow.value : ℝ)| ≤ 2 ^ (-41 : ℤ) := by
    rw [value_log10OfTwoLow, abs_le]
    push_cast
    norm_num
  have product : |((x.splitExponent * log10OfTwoLow.value : ℚ) : ℝ)| < 2 ^ (-30 : ℤ) := by
    rw [Rat.cast_mul, abs_mul, Rat.cast_intCast]
    exact (mul_le_mul size few (abs_nonneg _) (by norm_num)).trans_lt (by norm_num)
  have rounded := approx.abs_cast_sub_le product (by norm_num) (by norm_num)
  have triangle := abs_sub_abs_le_abs_sub
    ((mul (ofInt x.splitExponent) log10OfTwoLow).value : ℝ)
    (x.splitExponent * log10OfTwoLow.value : ℚ)
  have whole := sub_le_iff_le_add.mp (triangle.trans rounded)
  rw [Rat.cast_mul, Rat.cast_intCast] at rounded
  refine ⟨rounded, whole.trans ((add_le_add_right product.le _).trans (by norm_num))⟩

theorem lowPart_near (finite : x.isFinite = true) (nonzero : x.isZero = false) :
    |(x.lowPart.value : ℝ) - (x.splitExponent * log10OfTwoLow.value +
      Real.log (x.splitNumerator / x.splitDenominator) * (Real.log 10)⁻¹)| ≤ 3.64 * 2 ^ (-55 : ℤ) := by
  obtain ⟨restNear, restBound⟩ := restPart_near finite
  obtain ⟨factorNear, factorBound⟩ := factor_near nonzero
  have approx := add_approximates (mul (ofInt x.splitExponent) log10OfTwoLow)
    (mul log10OfE (logOfRatio x.splitNumerator x.splitDenominator))
  rw [← lowPart] at approx
  generalize (mul (ofInt x.splitExponent) log10OfTwoLow).value = rest at *
  generalize (mul log10OfE (logOfRatio x.splitNumerator x.splitDenominator)).value = factor at *
  have below : |((rest + factor : ℚ) : ℝ)| < 2 ^ (-1 : ℤ) := by
    rw [Rat.cast_add]
    exact (abs_add_le _ _).trans_lt ((add_le_add restBound factorBound).trans_lt (by norm_num))
  have rounded : |(x.lowPart.value : ℝ) - (rest + factor : ℚ)| ≤ 2 ^ (-55 : ℤ) :=
    approx.abs_cast_sub_le below (by norm_num) (by norm_num)
  have tiny : (2 : ℝ) ^ (-84 : ℤ) ≤ 0.01 * 2 ^ (-55 : ℤ) := by norm_num
  have restNear := restNear.trans tiny
  have split : (x.lowPart.value : ℝ) - (x.splitExponent * log10OfTwoLow.value +
      Real.log (x.splitNumerator / x.splitDenominator) * (Real.log 10)⁻¹) =
      (x.lowPart.value - (rest + factor : ℚ)) + ((rest - x.splitExponent * log10OfTwoLow.value) +
        (factor - Real.log (x.splitNumerator / x.splitDenominator) * (Real.log 10)⁻¹)) := by
    push_cast
    ring
  rw [split]
  refine (abs_add_le _ _).trans ((add_le_add rounded ((abs_add_le _ _).trans
    (add_le_add restNear factorNear))).trans (le_of_eq ?_))
  ring

theorem log10_sum_near (finite : x.isFinite = true) (nonzero : x.isZero = false) :
    |((x.lowPart.value + x.highPart.value : ℚ) : ℝ) - Real.log x.magnitude * (Real.log 10)⁻¹| <
      2 ^ (-53 : ℤ) := by
  have bound := abs_splitExponent_le finite
  have size : |(x.splitExponent : ℝ)| ≤ 1100 := by exact_mod_cast bound
  have power : |(x.splitExponent : ℝ) * (log10OfTwoHigh.value + log10OfTwoLow.value -
      Real.log 2 * (Real.log 10)⁻¹)| ≤ 1100 * 2 ^ (-90 : ℤ) := by
    rw [abs_mul]
    exact mul_le_mul size log10OfTwo_near (abs_nonneg _) (by norm_num)
  have split : ((x.lowPart.value + x.highPart.value : ℚ) : ℝ) -
      Real.log x.magnitude * (Real.log 10)⁻¹ =
      (x.lowPart.value - (x.splitExponent * log10OfTwoLow.value +
        Real.log (x.splitNumerator / x.splitDenominator) * (Real.log 10)⁻¹)) +
        x.splitExponent * (log10OfTwoHigh.value + log10OfTwoLow.value -
          Real.log 2 * (Real.log 10)⁻¹) := by
    rw [log_magnitude nonzero, highPart_value finite]
    push_cast
    ring
  rw [split]
  exact (abs_add_le _ _).trans_lt
    ((add_le_add (lowPart_near finite nonzero) power).trans_lt (by norm_num))

end ConfigExpr.Binary64
