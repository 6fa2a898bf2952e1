import ConfigExpr.Proofs.Number.Decimals

/-!
Rounding to the nearest float of 64 bits. No finite float is closer to the exact number, one of two
that are equally close has an even significand, and from halfway between the largest finite float and
the power of two behind it on the result is infinite.
-/
namespace ConfigExpr.Binary64
open Number

section
variable {x : Binary64} {negative : Bool} {magnitude : ℕ}

theorem toNat_ofMagnitudeBits (small : magnitude < 2 ^ 63) :
    (ofMagnitudeBits negative magnitude).bits.toNat =
      (if negative then 2 ^ 63 else 0) + magnitude := by
  rw [ofMagnitudeBits, UInt64.toNat_ofNat']
  apply Nat.mod_eq_of_lt
  split <;> omega

theorem isNegative_ofMagnitudeBits (small : magnitude < 2 ^ 63) :
    (ofMagnitudeBits negative magnitude).isNegative = negative := by
  rw [isNegative, toNat_ofMagnitudeBits small]
  cases negative with
  | false => exact decide_eq_false (by simp; omega)
  | true => exact decide_eq_true (by simp)

theorem exponentField_ofMagnitudeBits (small : magnitude < 2 ^ 63) :
    (ofMagnitudeBits negative magnitude).exponentField = magnitude / 2 ^ 52 := by
  rw [exponentField, toNat_ofMagnitudeBits small]
  cases negative with
  | false | true => simp only [Bool.false_eq_true, if_false, if_true]; omega

theorem fractionField_ofMagnitudeBits (small : magnitude < 2 ^ 63) :
    (ofMagnitudeBits negative magnitude).fractionField = magnitude % 2 ^ 52 := by
  rw [fractionField, toNat_ofMagnitudeBits small]
  cases negative with
  | false | true => simp only [Bool.false_eq_true, if_false, if_true]; omega

theorem toNat_abs (x : Binary64) : x.abs.bits.toNat = x.bits.toNat % 2 ^ 63 := by
  rw [abs, UInt64.toNat_ofNat']
  omega

theorem exponentField_abs (x : Binary64) : x.abs.exponentField = x.exponentField := by
  rw [exponentField, exponentField, toNat_abs]
  omega

theorem fractionField_abs (x : Binary64) : x.abs.fractionField = x.fractionField := by
  rw [fractionField, fractionField, toNat_abs]
  omega

theorem isFinite_abs (x : Binary64) : x.abs.isFinite = x.isFinite := by
  rw [isFinite, isFinite, exponentField_abs]

theorem isZero_abs (x : Binary64) : x.abs.isZero = x.isZero := by
  rw [isZero, isZero, exponentField_abs, fractionField_abs]

theorem eq_zero_of_isZero {x : Binary64} (zero : x.isZero = true) :
    ∃ negative, x = Binary64.zero negative := by
  obtain ⟨exponent, fraction⟩ := Bool.and_eq_true_iff.mp zero
  rw [beq_iff_eq, exponentField] at exponent
  rw [beq_iff_eq, fractionField] at fraction
  have bound := x.bits.toNat_lt
  have signOnly : x.bits.toNat = 0 ∨ x.bits.toNat = 2 ^ 63 := by omega
  obtain ⟨bits⟩ := x
  obtain plus | minus := signOnly
  · exact ⟨false, congrArg mk (UInt64.toNat.inj plus)⟩
  · exact ⟨true, congrArg mk (UInt64.toNat.inj minus)⟩

theorem magnitude_abs (x : Binary64) : x.abs.magnitude = x.magnitude := by
  rw [magnitude_eq, magnitude_eq, significand, significand, scale, scale, exponentField_abs,
    fractionField_abs]

theorem isNaN_eq_false {x : Binary64} (finite : x.isFinite = true) : x.isNaN = false := by
  rw [isNaN, beq_eq_false_iff_ne.mpr (bne_iff_ne.mp finite), Bool.false_and]

theorem isInfinite_eq_false {x : Binary64} (finite : x.isFinite = true) : x.isInfinite = false := by
  rw [isInfinite, beq_eq_false_iff_ne.mpr (bne_iff_ne.mp finite), Bool.false_and]

theorem fractionField_lt (x : Binary64) : x.fractionField < 2 ^ 52 :=
  Nat.mod_lt _ (by decide)

theorem significand_lt (x : Binary64) : x.significand < 2 ^ 53 := by
  have fraction := x.fractionField_lt
  rw [significand]
  split <;> omega

theorem le_scale (x : Binary64) : -1074 ≤ x.scale := by
  rw [scale]
  omega

theorem magnitude_nonneg (x : Binary64) : 0 ≤ x.magnitude :=
  div_nonneg (Nat.cast_nonneg _) (Nat.cast_nonneg _)

theorem magnitude_lt (x : Binary64) : x.magnitude < 2 ^ (x.scale + 53) := by
  have small : (x.significand : ℚ) < 2 ^ 53 := by exact_mod_cast x.significand_lt
  rw [magnitude_eq, zpow_add₀ two_ne_zero, mul_comm]
  exact mul_lt_mul_of_pos_left small (zpow_pos two_pos _)

end

/-- Halfway between the largest finite number and the power of two behind it. -/
def overflowThreshold : ℚ :=
  2 ^ 1024 - 2 ^ 970

theorem overflowThreshold_eq : overflowThreshold = (2 ^ 53 - 1 / 2) * 2 ^ (971 : ℤ) := by
  have last : (2 : ℚ) ^ (971 : ℤ) = 2 * 2 ^ 970 := by
    rw [← pow_succ']
    rfl
  have behind : (2 : ℚ) ^ 1024 = 2 ^ 54 * 2 ^ 970 := by
    rw [← pow_add]
  rw [overflowThreshold, last, behind]
  generalize (2 : ℚ) ^ 970 = half
  ring

theorem two_zpow_le_overflowThreshold : (2 : ℚ) ^ (1023 : ℤ) ≤ overflowThreshold := by
  have split : (2 : ℚ) ^ (1023 : ℤ) = 2 ^ 52 * 2 ^ (971 : ℤ) := zpow_add₀ two_ne_zero 52 971
  rw [overflowThreshold_eq, split]
  exact mul_le_mul_of_nonneg_right (by norm_num) (zpow_nonneg two_pos.le _)

theorem lt_overflowThreshold {q : ℚ} {n : ℤ} (below : |q| < 2 ^ n) (most : n ≤ 1023) :
    |q| < overflowThreshold :=
  below.trans_le ((zpow_le_zpow_right₀ (by norm_num) most).trans two_zpow_le_overflowThreshold)

theorem overflowThreshold_lt : overflowThreshold < (2 : ℚ) ^ (1024 : ℤ) := by
  have split : (2 : ℚ) ^ (1024 : ℤ) = 2 ^ 53 * 2 ^ (971 : ℤ) := zpow_add₀ two_ne_zero 53 971
  rw [overflowThreshold_eq, split]
  exact mul_lt_mul_of_pos_right (by norm_num) (zpow_pos two_pos _)

structure Rounds (q : ℚ) (x : Binary64) : Prop where
  overflows : overflowThreshold ≤ q → x.isInfinite = true
  finite : q < overflowThreshold → x.isFinite = true
  nearest : q < overflowThreshold → ∀ y : Binary64, y.isFinite = true →
    |x.magnitude - q| ≤ |y.magnitude - q|
  even_of_tie : q < overflowThreshold → ∀ y : Binary64, y.isFinite = true →
    y.magnitude ≠ x.magnitude → |y.magnitude - q| = |x.magnitude - q| → x.significand % 2 = 0

structure StepsBy (q : ℚ) (step : ℤ) : Prop where
  lowest : -1074 ≤ step
  below : q < 2 ^ (step + 53)
  normal : step = -1074 ∨ 2 ^ (step + 52) ≤ q

theorem log2_bounds {numerator denominator : ℕ} (top : 0 < numerator) (bottom : 0 < denominator) :
    (2 : ℚ) ^ ((numerator.log2 : ℤ) - denominator.log2 - 1) ≤ numerator / denominator ∧
      (numerator : ℚ) / denominator < 2 ^ ((numerator.log2 : ℤ) - denominator.log2 + 1) := by
  have topLow : ((2 ^ numerator.log2 : ℕ) : ℚ) ≤ numerator :=
    Nat.cast_le.mpr (Nat.log2_self_le top.ne')
  have topHigh : (numerator : ℚ) < ((2 ^ (numerator.log2 + 1) : ℕ) : ℚ) :=
    Nat.cast_lt.mpr Nat.lt_log2_self
  have bottomLow : ((2 ^ denominator.log2 : ℕ) : ℚ) ≤ denominator :=
    Nat.cast_le.mpr (Nat.log2_self_le bottom.ne')
  have bottomHigh : (denominator : ℚ) < ((2 ^ (denominator.log2 + 1) : ℕ) : ℚ) :=
    Nat.cast_lt.mpr Nat.lt_log2_self
  have positive : (0 : ℚ) < denominator := Nat.cast_pos.mpr bottom
  generalize numerator.log2 = a at *
  generalize denominator.log2 = b at *
  push_cast at topLow topHigh bottomLow bottomHigh
  rw [le_div_iff₀ positive, div_lt_iff₀ positive]
  constructor
  · calc (2 : ℚ) ^ ((a : ℤ) - b - 1) * denominator
        ≤ 2 ^ ((a : ℤ) - b - 1) * 2 ^ (b + 1) :=
          mul_le_mul_of_nonneg_left bottomHigh.le (zpow_nonneg two_pos.le _)
      _ = 2 ^ a := by
          rw [← zpow_natCast, ← zpow_natCast, ← zpow_add₀ two_ne_zero]
          congr 1
          push_cast
          ring
      _ ≤ numerator := topLow
  · calc (numerator : ℚ) < 2 ^ (a + 1) := topHigh
      _ = 2 ^ ((a : ℤ) - b + 1) * 2 ^ b := by
          rw [← zpow_natCast, ← zpow_natCast, ← zpow_add₀ two_ne_zero]
          congr 1
          push_cast
          ring
      _ ≤ 2 ^ ((a : ℤ) - b + 1) * denominator :=
          mul_le_mul_of_nonneg_left bottomLow (zpow_nonneg two_pos.le _)

theorem stepExponent_steps {numerator denominator : ℕ} (top : 0 < numerator)
    (bottom : 0 < denominator) :
    StepsBy (numerator / denominator) (stepExponent numerator denominator) := by
  obtain ⟨low, high⟩ := log2_bounds top bottom
  have positive : (0 : ℚ) < denominator := Nat.cast_pos.mpr bottom
  rw [stepExponent]
  obtain ⟨guess, isGuess⟩ : ∃ guess : ℤ, guess = (numerator.log2 : ℤ) - denominator.log2 - 52 :=
    ⟨_, rfl⟩
  have lowest : (numerator.log2 : ℤ) - denominator.log2 - 1 = guess - 1 + 52 := by omega
  have highest : (numerator.log2 : ℤ) - denominator.log2 + 1 = guess + 53 := by omega
  rw [lowest] at low
  rw [highest] at high
  rw [← isGuess]
  have fits_iff : numerator * 2 ^ (-guess).toNat < denominator * 2 ^ (guess.toNat + 52) ↔
      (numerator : ℚ) / denominator < 2 ^ (guess + 52) := by
    have scale : (2 : ℚ) ^ (guess + 52) = 2 ^ (guess.toNat + 52) / 2 ^ (-guess).toNat := by
      rw [zpow_add₀ two_ne_zero, ← pow_toNat_div two_ne_zero guess, pow_add, div_mul_eq_mul_div]
      rfl
    rw [scale, div_lt_div_iff₀ positive (by positivity), mul_comm (2 ^ _ : ℚ)]
    exact_mod_cast Iff.rfl
  -- The guess is one too large if the quotient has only 52 bits above it.
  obtain ⟨exact, isExact, below, normal⟩ : ∃ exact : ℤ,
      exact = (if numerator * 2 ^ (-guess).toNat < denominator * 2 ^ (guess.toNat + 52) then guess - 1
        else guess) ∧ (numerator : ℚ) / denominator < 2 ^ (exact + 53) ∧
        2 ^ (exact + 52) ≤ (numerator : ℚ) / denominator := by
    refine ⟨_, rfl, ?_⟩
    split
    next fits =>
      have exponent : guess - 1 + 53 = guess + 52 := by ring
      rw [exponent]
      exact ⟨fits_iff.mp fits, low⟩
    next short => exact ⟨high, not_lt.mp fun less => short (fits_iff.mpr less)⟩
  rw [← isExact]
  rcases max_cases exact (-1074) with ⟨same, ge⟩ | ⟨same, less⟩
  · rw [same]
    exact ⟨ge, below, .inr normal⟩
  · rw [same]
    refine ⟨le_rfl, below.trans_le (zpow_le_zpow_right₀ (by norm_num) (by omega)), .inl rfl⟩

theorem ofMagnitudeBits_steps (negative : Bool) {step : ℤ} {units : ℕ} (lowest : -1074 ≤ step)
    (normal : step = -1074 ∨ 2 ^ 52 ≤ units) (most : units ≤ 2 ^ 53)
    (fits : (step + 1074).toNat * 2 ^ 52 + units < infinityBits) :
    let x := ofMagnitudeBits negative ((step + 1074).toNat * 2 ^ 52 + units)
    x.isFinite = true ∧ x.magnitude = units * 2 ^ step ∧ x.significand % 2 = units % 2 := by
  intro x
  rw [infinityBits] at fits
  have small : (step + 1074).toNat * 2 ^ 52 + units < 2 ^ 63 := by omega
  have field : x.exponentField = ((step + 1074).toNat * 2 ^ 52 + units) / 2 ^ 52 :=
    exponentField_ofMagnitudeBits small
  have fraction : x.fractionField = ((step + 1074).toNat * 2 ^ 52 + units) % 2 ^ 52 :=
    fractionField_ofMagnitudeBits small
  have finite : x.isFinite = true := by
    rw [isFinite, field, bne_iff_ne]
    omega
  refine ⟨finite, ?_⟩
  obtain ⟨n, isStep⟩ : ∃ n : ℕ, step = n - 1074 := ⟨(step + 1074).toNat, by omega⟩
  have places : (step + 1074).toNat = n := by omega
  rw [places] at field fraction
  rw [magnitude_eq, significand, scale, field, fraction]
  rcases Nat.lt_or_ge units (2 ^ 52) with subnormal | more
  · have none : n = 0 := by omega
    have noField : (n * 2 ^ 52 + units) / 2 ^ 52 = 0 := by omega
    have all : (n * 2 ^ 52 + units) % 2 ^ 52 = units := by omega
    rw [noField, all, if_pos rfl, isStep, none]
    exact ⟨rfl, rfl⟩
  · rcases Nat.lt_or_ge units (2 ^ 53) with full | carried
    · have nextField : (n * 2 ^ 52 + units) / 2 ^ 52 = n + 1 := by omega
      have others : (n * 2 ^ 52 + units) % 2 ^ 52 + 2 ^ 52 = units := by omega
      have exponent : ((max (n + 1) 1 : ℕ) : ℤ) - 1075 = step := by omega
      rw [nextField, if_neg (Nat.succ_ne_zero n), others, exponent]
      exact ⟨rfl, rfl⟩
    · have nextField : (n * 2 ^ 52 + units) / 2 ^ 52 = n + 2 := by omega
      have lone : (n * 2 ^ 52 + units) % 2 ^ 52 + 2 ^ 52 = 2 ^ 52 := by omega
      have exponent : ((max (n + 2) 1 : ℕ) : ℤ) - 1075 = step + 1 := by omega
      have all : units = 2 ^ 53 := by omega
      rw [nextField, if_neg (Nat.succ_ne_zero (n + 1)), lone, exponent, all, zpow_add_one₀ two_ne_zero]
      refine ⟨?_, rfl⟩
      push_cast
      ring

theorem abs_steps_sub (q : ℚ) (step : ℤ) (units : ℕ) :
    |units * 2 ^ step - q| = |(units : ℚ) - q / 2 ^ step| * 2 ^ step := by
  have unit : (0 : ℚ) < 2 ^ step := zpow_pos two_pos _
  rw [← abs_of_pos unit, ← abs_mul, abs_of_pos unit, sub_mul, div_mul_cancel₀ _ unit.ne']

namespace StepsBy
variable {q : ℚ} {step : ℤ} {units : ℕ}

theorem multiple_or_farther (steps : StepsBy q step) (y : Binary64) :
    (∃ k, y.magnitude = (y.significand * 2 ^ k : ℕ) * 2 ^ step) ∨
      |((2 ^ 52 : ℕ) : ℚ) * 2 ^ step - q| < |y.magnitude - q| := by
  rcases le_or_gt step y.scale with coarse | fine
  · refine .inl ⟨(y.scale - step).toNat, ?_⟩
    have exponent : y.scale = ((y.scale - step).toNat : ℤ) + step := by omega
    rw [magnitude_eq, exponent, zpow_add₀ two_ne_zero, zpow_natCast, ← exponent]
    push_cast
    ring
  · have least : -1074 < step := (le_scale y).trans_lt fine
    have normal : 2 ^ (step + 52) ≤ q := steps.normal.resolve_left least.ne'
    have below : y.magnitude < 2 ^ (step + 52) :=
      y.magnitude_lt.trans_le (zpow_le_zpow_right₀ (by norm_num) (by omega))
    have power : (2 : ℚ) ^ (step + 52) = ((2 ^ 52 : ℕ) : ℚ) * 2 ^ step := by
      rw [zpow_add₀ two_ne_zero, mul_comm]
      norm_num
    rw [← power, abs_sub_comm, abs_sub_comm _ q, abs_of_nonneg (by linarith),
      abs_of_pos (by linarith)]
    exact .inr (by linarith)

theorem closest (rounded : NearestEven (q / 2 ^ step) units) (n : ℕ) :
    |units * 2 ^ step - q| ≤ |n * 2 ^ step - q| := by
  rw [abs_steps_sub, abs_steps_sub]
  exact mul_le_mul_of_nonneg_right (rounded.abs_sub_le_of_nearest n) (zpow_nonneg two_pos.le _)

theorem nearest (steps : StepsBy q step) (rounded : NearestEven (q / 2 ^ step) units)
    (y : Binary64) :
    |units * 2 ^ step - q| ≤ |y.magnitude - q| ∧
      (y.magnitude ≠ units * 2 ^ step → |y.magnitude - q| = |units * 2 ^ step - q| →
        units % 2 = 0) := by
  rcases steps.multiple_or_farther y with ⟨k, multiple⟩ | farther
  · rw [multiple]
    refine ⟨closest rounded _, fun other same => ?_⟩
    rw [abs_steps_sub, abs_steps_sub] at same
    exact rounded.even_of_abs_sub_eq (fun equal => other (by rw [equal]))
      (mul_right_cancel₀ (zpow_pos two_pos _).ne' same)
  · have less := (closest rounded (2 ^ 52)).trans_lt farther
    exact ⟨less.le, fun _ same => absurd same less.ne'⟩

theorem units_bounds (steps : StepsBy q step) (rounded : NearestEven (q / 2 ^ step) units) :
    units ≤ 2 ^ 53 ∧ (step = -1074 ∨ 2 ^ 52 ≤ units) := by
  have unit : (0 : ℚ) < 2 ^ step := zpow_pos two_pos _
  constructor
  · have high : q / 2 ^ step ≤ ((2 ^ 53 : ℕ) : ℚ) := by
      rw [div_le_iff₀ unit, Nat.cast_pow, Nat.cast_ofNat, ← zpow_natCast, ← zpow_add₀ two_ne_zero,
        add_comm]
      exact steps.below.le
    exact rounded.ge_of_ge high
  · refine steps.normal.imp_right fun low => ?_
    have low : ((2 ^ 52 : ℕ) : ℚ) ≤ q / 2 ^ step := by
      rw [le_div_iff₀ unit, Nat.cast_pow, Nat.cast_ofNat, ← zpow_natCast, ← zpow_add₀ two_ne_zero,
        add_comm]
      exact low
    exact rounded.le_of_le low

theorem overflows_iff (steps : StepsBy q step) (rounded : NearestEven (q / 2 ^ step) units) :
    infinityBits ≤ (step + 1074).toNat * 2 ^ 52 + units ↔ overflowThreshold ≤ q := by
  have lowest := steps.lowest
  obtain ⟨most, normal⟩ := steps.units_bounds rounded
  rw [infinityBits]
  rcases lt_trichotomy step 971 with small | last | large
  · have below : q < overflowThreshold := steps.below.trans_le
      ((zpow_le_zpow_right₀ (by norm_num) (by omega)).trans two_zpow_le_overflowThreshold)
    constructor
    · intro reached
      omega
    · exact fun reached => absurd below reached.not_gt
  · subst last
    have unit : (0 : ℚ) < 2 ^ (971 : ℤ) := zpow_pos two_pos _
    rw [overflowThreshold_eq, ← le_div_iff₀ unit]
    generalize q / 2 ^ (971 : ℤ) = scaled at rounded
    constructor
    · intro reached
      have all : units = 2 ^ 53 := by omega
      have above := rounded.above
      rw [all] at above
      push_cast at above
      linarith
    · intro reached
      have below := rounded.below
      have nearly : ((2 ^ 53 - 1 : ℕ) : ℚ) ≤ units := by
        push_cast
        linarith
      have nearly := Nat.cast_le.mp nearly
      -- One step below it would be a tie that goes to an odd number.
      have notOne : units ≠ 2 ^ 53 - 1 := by
        intro one
        have even := rounded.even_of_half (.inl (le_antisymm below (by rw [one]; push_cast; linarith)))
        omega
      omega
  · have above : overflowThreshold ≤ q := overflowThreshold_lt.le.trans
      ((zpow_le_zpow_right₀ (by norm_num) (by omega)).trans (steps.normal.resolve_left (by omega)))
    constructor
    · exact fun _ => above
    · intro _
      omega

theorem magnitude_of_rounds (steps : StepsBy q step) (rounded : NearestEven (q / 2 ^ step) units)
    (small : q < overflowThreshold) {x : Binary64} (rounds : x.Rounds q) :
    x.magnitude = units * 2 ^ step := by
  obtain ⟨most, normal⟩ := steps.units_bounds rounded
  have fits : (step + 1074).toNat * 2 ^ 52 + units < infinityBits :=
    lt_of_not_ge fun reached => small.not_ge ((steps.overflows_iff rounded).mp reached)
  obtain ⟨finite, magnitude, -⟩ := ofMagnitudeBits_steps false steps.lowest normal most fits
  by_contra other
  have least := rounds.nearest small _ finite
  rw [magnitude] at least
  have same := le_antisymm least (steps.nearest rounded x).1
  have unitsEven := (steps.nearest rounded x).2 other same
  have even := rounds.even_of_tie small _ finite (by rw [magnitude]; exact Ne.symm other)
    (by rw [magnitude]; exact same.symm)
  rcases steps.multiple_or_farther x with ⟨k, multiple⟩ | farther
  · rw [multiple] at other same
    rw [abs_steps_sub, abs_steps_sub] at same
    have distance := mul_right_cancel₀ (zpow_pos two_pos step).ne' same
    have distinct : x.significand * 2 ^ k ≠ units := fun equal => other (by rw [equal])
    have near := rounded.abs_sub_le_half
    have adjacent : |((x.significand * 2 ^ k : ℕ) : ℤ) - units| ≤ 1 := by
      have triangle := abs_sub_le ((x.significand * 2 ^ k : ℕ) : ℚ) (q / 2 ^ step) units
      rw [distance, abs_sub_comm (q / 2 ^ step)] at triangle
      have close := triangle.trans (add_le_add near near)
      norm_num at close
      exact_mod_cast close
    obtain ⟨above, below⟩ := abs_le.mp adjacent
    have evenMultiple : x.significand * 2 ^ k % 2 = 0 := by
      rw [Nat.mul_mod, even, Nat.zero_mul, Nat.zero_mod]
    omega
  · exact absurd same ((closest rounded (2 ^ 52)).trans_lt farther).ne'

end StepsBy

theorem infinity_rounds {q : ℚ} (negative : Bool) (large : overflowThreshold ≤ q) :
    (infinity negative).Rounds q where
  overflows := fun _ => by
    cases negative with
    | false | true => decide
  finite := fun small => absurd small large.not_gt
  nearest := fun small => absurd small large.not_gt
  even_of_tie := fun small => absurd small large.not_gt

theorem infinity_isNegative (negative : Bool) : (infinity negative).isNegative = negative :=
  isNegative_ofMagnitudeBits (by decide)

theorem zero_isNegative (negative : Bool) : (zero negative).isNegative = negative :=
  isNegative_ofMagnitudeBits (by decide)

theorem magnitude_eq_zero_or (x : Binary64) : x.magnitude = 0 ∨ 2 ^ (-1074 : ℤ) ≤ x.magnitude := by
  rw [magnitude_eq]
  rcases Nat.eq_zero_or_pos x.significand with none | some
  · rw [none, Nat.cast_zero, zero_mul]
    exact .inl rfl
  · refine .inr ?_
    have one : (1 : ℚ) ≤ x.significand := by exact_mod_cast some
    calc (2 : ℚ) ^ (-1074 : ℤ) ≤ 2 ^ x.scale := zpow_le_zpow_right₀ (by norm_num) x.le_scale
      _ = 1 * 2 ^ x.scale := (one_mul _).symm
      _ ≤ x.significand * 2 ^ x.scale := mul_le_mul_of_nonneg_right one (zpow_nonneg two_pos.le _)

theorem smallest_eq : (2 : ℚ) ^ (-1074 : ℤ) = 2 * 2 ^ (-1075 : ℤ) := by
  rw [← zpow_one_add₀ two_ne_zero]
  rfl

theorem underflow_lt_overflowThreshold : (2 : ℚ) ^ (-1075 : ℤ) < overflowThreshold :=
  (zpow_lt_zpow_right₀ (by norm_num) (by norm_num)).trans_le two_zpow_le_overflowThreshold

theorem rounds_of_magnitude_eq_zero {q : ℚ} {x : Binary64} (finite : x.isFinite = true)
    (none : x.magnitude = 0) (nonneg : 0 ≤ q) (small : q ≤ 2 ^ (-1075 : ℤ)) : x.Rounds q := by
  have half := smallest_eq
  have tiny := small.trans_lt underflow_lt_overflowThreshold
  have significand : x.significand = 0 := by
    rw [magnitude_eq] at none
    exact_mod_cast (mul_eq_zero.mp none).resolve_right (zpow_pos two_pos _).ne'
  refine ⟨fun large => absurd tiny large.not_gt, fun _ => finite, fun _ y _ => ?_,
    fun _ _ _ _ _ => ?_⟩
  · rw [none, zero_sub, abs_neg, abs_of_nonneg nonneg]
    rcases y.magnitude_eq_zero_or with none | some
    · rw [none, zero_sub, abs_neg, abs_of_nonneg nonneg]
    · exact le_abs.mpr (.inl (by linarith))
  · rw [significand]

theorem isFinite_zero (negative : Bool) : (zero negative).isFinite = true := by
  cases negative with
  | false | true => decide

theorem magnitude_zero (negative : Bool) : (zero negative).magnitude = 0 := by
  have significand : (zero negative).significand = 0 := by
    cases negative with
    | false | true => decide
  rw [magnitude_eq, significand, Nat.cast_zero, zero_mul]

theorem zero_rounds {q : ℚ} (negative : Bool) (nonneg : 0 ≤ q) (small : q ≤ 2 ^ (-1075 : ℤ)) :
    (zero negative).Rounds q :=
  rounds_of_magnitude_eq_zero (isFinite_zero negative) (magnitude_zero negative) nonneg small

theorem ofRatio_rounds (negative : Bool) (numerator : ℕ) {denominator : ℕ}
    (bottom : 0 < denominator) :
    (ofRatio negative numerator denominator).Rounds (numerator / denominator) := by
  rw [ofRatio]
  split
  next none =>
    rw [none, Nat.cast_zero, zero_div]
    exact zero_rounds negative le_rfl (zpow_nonneg two_pos.le _)
  next some =>
    have steps := stepExponent_steps (Nat.pos_of_ne_zero some) bottom
    have rounded := roundHalfEven_scaled (show 0 < 2 by decide) numerator bottom
      (stepExponent numerator denominator)
    rw [Nat.cast_ofNat] at rounded
    dsimp only
    generalize stepExponent numerator denominator = step at *
    generalize roundHalfEven _ _ = units at *
    generalize (numerator : ℚ) / denominator = q at *
    obtain ⟨most, normal⟩ := steps.units_bounds rounded
    have overflows_iff := steps.overflows_iff rounded
    rcases le_or_gt overflowThreshold q with large | small
    · rw [min_eq_left (overflows_iff.mpr large)]
      exact infinity_rounds negative large
    · have fits := lt_of_not_ge fun reached => small.not_ge (overflows_iff.mp reached)
      rw [min_eq_right fits.le]
      obtain ⟨finite, magnitude, parity⟩ :=
        ofMagnitudeBits_steps negative steps.lowest normal most fits
      refine ⟨fun large => absurd small large.not_gt, fun _ => finite, fun _ y _ => ?_,
        fun _ y _ other same => ?_⟩
      · rw [magnitude]
        exact (steps.nearest rounded y).1
      · rw [magnitude] at other same
        rw [parity]
        exact (steps.nearest rounded y).2 other same

theorem exists_steps {q : ℚ} (positive : 0 < q) :
    ∃ step units, StepsBy q step ∧ NearestEven (q / 2 ^ step) units := by
  have top : 0 < q.num.toNat := by
    have := Rat.num_pos.mpr positive
    omega
  have ratio : (q.num.toNat : ℚ) / q.den = q := by
    have whole : (q.num.toNat : ℤ) = q.num := Int.toNat_of_nonneg (Rat.num_nonneg.mpr positive.le)
    rw [← Int.cast_natCast, whole, Rat.num_div_den]
  have steps := stepExponent_steps top q.den_pos
  have rounded := roundHalfEven_scaled (show 0 < 2 by decide) q.num.toNat q.den_pos
    (stepExponent q.num.toNat q.den)
  rw [ratio] at steps rounded
  exact ⟨_, _, steps, rounded⟩

theorem Rounds.magnitude_eq_zero {q : ℚ} {x : Binary64} (rounds : x.Rounds q) (nonneg : 0 ≤ q)
    (small : q < 2 ^ (-1075 : ℤ)) : x.magnitude = 0 := by
  have half := smallest_eq
  refine x.magnitude_eq_zero_or.resolve_right fun some => ?_
  have near := rounds.nearest (small.trans underflow_lt_overflowThreshold) _ (isFinite_zero false)
  rw [magnitude_zero, zero_sub, abs_neg, abs_of_nonneg nonneg, abs_of_pos (by linarith)] at near
  linarith

theorem Rounds.abs_sub_le {q : ℚ} {x : Binary64} (rounds : x.Rounds q) (nonneg : 0 ≤ q) {n : ℤ}
    (below : q < 2 ^ n) (low : -1021 ≤ n) (high : n ≤ 1023) : |x.magnitude - q| ≤ 2 ^ (n - 54) := by
  have unit : (0 : ℚ) < 2 ^ (n - 54) := zpow_pos two_pos _
  have small : q < overflowThreshold := below.trans_le
    ((zpow_le_zpow_right₀ (by norm_num) high).trans two_zpow_le_overflowThreshold)
  rcases nonneg.eq_or_lt with rfl | positive
  · rw [rounds.magnitude_eq_zero le_rfl (zpow_pos two_pos _), sub_zero, abs_zero]
    exact unit.le
  · obtain ⟨step, units, steps, rounded⟩ := exists_steps positive
    have fine : step ≤ n - 53 := by
      rcases steps.normal with lowest | normal
      · omega
      · have := (zpow_lt_zpow_iff_right₀ (by norm_num)).mp (normal.trans_lt below)
        omega
    have half : (2 : ℚ) ^ step = 2 * 2 ^ (step - 1) := by
      rw [← zpow_one_add₀ two_ne_zero]
      congr 1
      ring
    rw [steps.magnitude_of_rounds rounded small rounds, abs_steps_sub, half]
    calc |(units : ℚ) - q / (2 * 2 ^ (step - 1))| * (2 * 2 ^ (step - 1))
        ≤ 1 / 2 * (2 * 2 ^ (step - 1)) :=
          mul_le_mul_of_nonneg_right (half ▸ rounded.abs_sub_le_half)
            (mul_nonneg two_pos.le (zpow_nonneg two_pos.le _))
      _ = 2 ^ (step - 1) := by ring
      _ ≤ 2 ^ (n - 54) := zpow_le_zpow_right₀ (by norm_num) (by omega)

theorem Rounds.magnitude_eq {units : ℕ} {exponent : ℤ} {x : Binary64}
    (rounds : x.Rounds (units * 2 ^ exponent)) (few : units < 2 ^ 53) (low : -1074 ≤ exponent)
    (small : (units : ℚ) * 2 ^ exponent < overflowThreshold) :
    x.magnitude = units * 2 ^ exponent := by
  rcases Nat.eq_zero_or_pos units with rfl | some
  · rw [Nat.cast_zero, zero_mul] at rounds ⊢
    exact rounds.magnitude_eq_zero le_rfl (zpow_pos two_pos _)
  · have unit : (0 : ℚ) < 2 ^ exponent := zpow_pos two_pos _
    have below : (units : ℚ) * 2 ^ exponent < 2 ^ (exponent + 53) := by
      have few : (units : ℚ) < 2 ^ 53 := by exact_mod_cast few
      rw [zpow_add₀ two_ne_zero, mul_comm]
      exact mul_lt_mul_of_pos_left few unit
    obtain ⟨step, rounded, steps, nearest⟩ := exists_steps (mul_pos (Nat.cast_pos.mpr some) unit)
    have fine : step ≤ exponent := by
      rcases steps.normal with lowest | normal
      · omega
      · have := (zpow_lt_zpow_iff_right₀ (by norm_num)).mp (normal.trans_lt below)
        omega
    have multiple : (units : ℚ) * 2 ^ exponent / 2 ^ step =
        ((units * 2 ^ (exponent - step).toNat : ℕ) : ℚ) := by
      have split : (2 : ℚ) ^ (exponent - step).toNat = 2 ^ exponent / 2 ^ step := by
        rw [← zpow_natCast, Int.toNat_of_nonneg (by omega), zpow_sub₀ two_ne_zero]
      push_cast
      rw [split, mul_div_assoc]
    rw [steps.magnitude_of_rounds nearest small rounds]
    rw [multiple] at nearest
    rw [nearest.unique (.natCast _), ← multiple, div_mul_cancel₀ _ (zpow_pos two_pos _).ne']

theorem Rounds.of_small {q r : ℚ} {x : Binary64} (rounds : x.Rounds q) (nonneg : 0 ≤ q)
    (small : q < 2 ^ (-1075 : ℤ)) (nonneg' : 0 ≤ r) (small' : r ≤ 2 ^ (-1075 : ℤ)) :
    x.Rounds r :=
  rounds_of_magnitude_eq_zero (rounds.finite (small.trans underflow_lt_overflowThreshold))
    (rounds.magnitude_eq_zero nonneg small) nonneg' small'

theorem Rounds.of_large {q r : ℚ} {x : Binary64} (rounds : x.Rounds q)
    (large : overflowThreshold ≤ q) (large' : overflowThreshold ≤ r) : x.Rounds r where
  overflows := fun _ => rounds.overflows large
  finite := fun small => absurd small large'.not_gt
  nearest := fun small => absurd small large'.not_gt
  even_of_tie := fun small => absurd small large'.not_gt

theorem ofRatio_isNegative (negative : Bool) (numerator denominator : ℕ) :
    (ofRatio negative numerator denominator).isNegative = negative := by
  rw [ofRatio]
  split
  next => exact zero_isNegative negative
  next => exact isNegative_ofMagnitudeBits ((Nat.min_le_left _ _).trans_lt (by decide))

theorem two_zpow_le_ten_zpow {n : ℤ} (nonneg : 0 ≤ n) : (2 : ℚ) ^ (3 * n) ≤ 10 ^ n := by
  obtain ⟨n, rfl⟩ := Int.eq_ofNat_of_zero_le nonneg
  rw [zpow_mul, zpow_natCast, zpow_natCast]
  exact pow_le_pow_left₀ (by norm_num) (by norm_num) n

theorem ten_zpow_le_two_zpow {n : ℤ} (nonpos : n ≤ 0) : (10 : ℚ) ^ n ≤ 2 ^ (3 * n) := by
  have inverse := two_zpow_le_ten_zpow (n := -n) (by omega)
  rw [mul_neg, zpow_neg, zpow_neg] at inverse
  exact (inv_le_inv₀ (zpow_pos (by norm_num) _) (zpow_pos (by norm_num) _)).mp inverse

theorem overflowThreshold_le_ten_zpow {n : ℤ} (large : 342 ≤ n) :
    overflowThreshold ≤ (10 : ℚ) ^ n :=
  overflowThreshold_lt.le.trans
    ((zpow_le_zpow_right₀ (by norm_num) (by omega)).trans (two_zpow_le_ten_zpow (by omega)))

theorem ten_zpow_le_underflow {n : ℤ} (small : n ≤ -359) : (10 : ℚ) ^ n ≤ 2 ^ (-1075 : ℤ) :=
  (ten_zpow_le_two_zpow (by omega)).trans (zpow_le_zpow_right₀ (by norm_num) (by omega))

theorem ofDecimal_rounds (negative : Bool) (digits : ℕ) (exponent : ℤ) :
    (ofDecimal negative digits exponent).Rounds (digits * 10 ^ exponent) := by
  have unit : (0 : ℚ) < 10 ^ exponent := zpow_pos (by norm_num) _
  rw [ofDecimal]
  split
  next none =>
    rw [none, Nat.cast_zero, zero_mul]
    exact zero_rounds negative le_rfl (zpow_nonneg two_pos.le _)
  next some =>
    have one : (1 : ℚ) ≤ digits := by exact_mod_cast Nat.pos_of_ne_zero some
    split
    next large =>
      refine infinity_rounds negative ((overflowThreshold_le_ten_zpow (n := exponent) (by omega)).trans ?_)
      exact le_mul_of_one_le_left unit.le one
    next =>
      split
      next small =>
        refine zero_rounds negative (mul_nonneg (Nat.cast_nonneg _) unit.le) ?_
        have few : (digits : ℚ) ≤ 10 ^ ((digits.log2 : ℤ) + 1) := by
          have bits : (digits : ℚ) < 2 ^ (digits.log2 + 1) := by exact_mod_cast Nat.lt_log2_self
          have ten : (2 : ℚ) ^ (digits.log2 + 1) ≤ 10 ^ (digits.log2 + 1) :=
            pow_le_pow_left₀ (by norm_num) (by norm_num) _
          exact_mod_cast bits.le.trans ten
        calc (digits : ℚ) * 10 ^ exponent
            ≤ 10 ^ ((digits.log2 : ℤ) + 1) * 10 ^ exponent := mul_le_mul_of_nonneg_right few unit.le
          _ = 10 ^ ((digits.log2 : ℤ) + 1 + exponent) := (zpow_add₀ (by norm_num) _ _).symm
          _ ≤ 2 ^ (-1075 : ℤ) := ten_zpow_le_underflow (by omega)
      next =>
        have ratio := ofRatio_rounds negative (digits * 10 ^ exponent.toNat)
          (Nat.pow_pos (n := (-exponent).toNat) (show 0 < 10 by decide))
        have same : ((digits * 10 ^ exponent.toNat : ℕ) : ℚ) / (10 ^ (-exponent).toNat : ℕ) =
            digits * 10 ^ exponent := by
          rw [← pow_toNat_div (by norm_num) exponent, ← mul_div_assoc]
          push_cast
          rfl
        rwa [same] at ratio

theorem ofDecimal_isNegative (negative : Bool) (digits : ℕ) (exponent : ℤ) :
    (ofDecimal negative digits exponent).isNegative = negative := by
  rw [ofDecimal]
  split
  next => exact zero_isNegative negative
  next =>
    split
    next => exact infinity_isNegative negative
    next =>
      split
      next => exact zero_isNegative negative
      next => exact ofRatio_isNegative negative _ _

end ConfigExpr.Binary64
