import ConfigExpr.Number.Logarithm
import Mathlib.Analysis.SpecialFunctions.Log.Deriv
import Mathlib.Tactic.Linarith
import Mathlib.Tactic.FieldSimp

/-!
The logarithm of a ratio between a half and two in fixed point. It is twice the inverse hyperbolic
tangent of the difference over the sum; the terms of its series that are left out and what each
division drops are less than the last nine bits.
-/
namespace ConfigExpr.Binary64
open Finset

section
variable {t : ℝ}

/-- The first terms of the inverse hyperbolic tangent. -/
noncomputable def atanhSum (t : ℝ) (start terms : ℕ) : ℝ :=
  ∑ k ∈ range terms, t ^ (2 * (start + k) + 1) / (2 * (start + k) + 1)

theorem atanhSum_succ (t : ℝ) (start terms : ℕ) : atanhSum t start (terms + 1) =
    t ^ (2 * start + 1) / (2 * start + 1) + atanhSum t (start + 1) terms := by
  rw [atanhSum, sum_range_succ', add_comm, atanhSum]
  congr 1
  · simp
  · refine sum_congr rfl fun k _ => ?_
    push_cast
    ring_nf

theorem atanhSum_near (nonneg : 0 ≤ t) (third : t ≤ 1 / 3) (terms : ℕ) :
    2 * atanhSum t 0 terms ≤ Real.log (1 + t) - Real.log (1 - t) ∧
      Real.log (1 + t) - Real.log (1 - t) ≤ 2 * atanhSum t 0 terms + 9 / 4 * t ^ (2 * terms + 1) := by
  have small : |t| < 1 := by
    rw [abs_of_nonneg nonneg]
    linarith
  have series := Real.hasSum_log_sub_log_of_abs_lt_one small
  have first : 2 * atanhSum t 0 terms =
      ∑ k ∈ range terms, 2 * (1 / (2 * (k : ℝ) + 1)) * t ^ (2 * k + 1) := by
    rw [atanhSum, mul_sum]
    refine sum_congr rfl fun k _ => ?_
    rw [zero_add, Nat.cast_zero, zero_add]
    ring
  rw [first]
  constructor
  · exact sum_le_hasSum _ (fun k _ => by positivity) series
  · have tail := (hasSum_nat_add_iff' terms).mpr series
    have geometric := (hasSum_geometric_of_lt_one (sq_nonneg t) (by nlinarith : t ^ 2 < 1)).mul_left
      (2 * t ^ (2 * terms + 1))
    have below := hasSum_le (fun k => ?_) tail geometric
    · have ratio : (1 - t ^ 2)⁻¹ ≤ 9 / 8 := by
        rw [inv_le_comm₀ (by nlinarith) (by norm_num)]
        nlinarith
      have power : 0 ≤ 2 * t ^ (2 * terms + 1) := by positivity
      have := mul_le_mul_of_nonneg_left ratio power
      linarith
    · have fraction : 1 / (2 * ((k + terms : ℕ) : ℝ) + 1) ≤ 1 := by
        rw [div_le_one (by positivity)]
        have : (0 : ℝ) ≤ ((k + terms : ℕ) : ℝ) := Nat.cast_nonneg _
        linarith
      have split : t ^ (2 * (k + terms) + 1) = t ^ (2 * terms + 1) * (t ^ 2) ^ k := by
        rw [← pow_mul, ← pow_add]
        congr 1
        ring
      rw [split]
      have power : 0 ≤ t ^ (2 * terms + 1) * (t ^ 2) ^ k := by positivity
      have := mul_le_mul_of_nonneg_right fraction power
      linarith

noncomputable def unity : ℝ :=
  2 ^ fixedBits

theorem unity_pos : 0 < unity :=
  pow_pos two_pos _

theorem div_near (numerator : ℕ) {denominator : ℕ} (positive : 0 < denominator) :
    ((numerator / denominator : ℕ) : ℝ) ≤ numerator / denominator ∧
      (numerator : ℝ) / denominator < (numerator / denominator : ℕ) + 1 := by
  have some : (0 : ℝ) < denominator := Nat.cast_pos.mpr positive
  refine ⟨Nat.cast_div_le, ?_⟩
  rw [div_lt_iff₀ some]
  exact_mod_cast Nat.lt_mul_of_div_lt (Nat.lt_succ_self _) positive

theorem nextPower_near (nonneg : 0 ≤ t) (third : t ≤ 1 / 3) {square power : ℕ}
    (squareLow : square ≤ t ^ 2 * unity) (squareHigh : t ^ 2 * unity ≤ square + 2) {odd : ℕ}
    (some : 0 < odd) (low : power ≤ t ^ odd * unity) (high : t ^ odd * unity ≤ power + 2) :
    ((power * square / 2 ^ fixedBits : ℕ) : ℝ) ≤ t ^ (odd + 2) * unity ∧
      t ^ (odd + 2) * unity ≤ ((power * square / 2 ^ fixedBits : ℕ) : ℝ) + 2 := by
  have positive := unity_pos
  obtain ⟨below, above⟩ := div_near (power * square) (Nat.two_pow_pos fixedBits)
  have unit : ((2 ^ fixedBits : ℕ) : ℝ) = unity := by
    rw [unity]
    push_cast
    rfl
  rw [unit, Nat.cast_mul] at below above
  have product : t ^ (odd + 2) * unity = t ^ odd * unity * (t ^ 2 * unity) / unity := by
    field_simp
    ring
  have ninth : t ^ 2 ≤ 1 / 9 := by nlinarith
  have powerThird : t ^ odd ≤ 1 / 3 := (pow_le_of_le_one nonneg (by linarith) some.ne').trans third
  rw [product]
  constructor
  · refine below.trans (div_le_div_of_nonneg_right ?_ positive.le)
    exact mul_le_mul low squareLow (Nat.cast_nonneg _) (by positivity)
  · have rest : t ^ odd * unity * (t ^ 2 * unity - square) ≤ 1 / 3 * unity * 2 :=
      mul_le_mul (mul_le_mul_of_nonneg_right powerThird positive.le) (by linarith) (by linarith)
        (by positivity)
    have short : (square : ℝ) * (t ^ odd * unity - power) ≤ 1 / 9 * unity * 2 :=
      mul_le_mul (squareLow.trans (mul_le_mul_of_nonneg_right ninth positive.le)) (by linarith)
        (by linarith) (by positivity)
    have all : t ^ odd * unity * (t ^ 2 * unity) ≤ power * square + 8 / 9 * unity := by
      linarith
    have quotient := div_le_div_of_nonneg_right all positive.le
    rw [add_div, mul_div_cancel_right₀ _ positive.ne'] at quotient
    linarith

theorem square_near (nonneg : 0 ≤ t) (third : t ≤ 1 / 3) {argument : ℕ}
    (low : argument ≤ t * unity) (high : t * unity < argument + 1) :
    ((argument * argument / 2 ^ fixedBits : ℕ) : ℝ) ≤ t ^ 2 * unity ∧
      t ^ 2 * unity ≤ ((argument * argument / 2 ^ fixedBits : ℕ) : ℝ) + 2 := by
  have positive := unity_pos
  obtain ⟨below, above⟩ := div_near (argument * argument) (Nat.two_pow_pos fixedBits)
  rw [Nat.cast_mul, Nat.cast_pow, Nat.cast_ofNat, ← unity] at below above
  have product : t ^ 2 * unity = t * unity * (t * unity) / unity := by
    field_simp
  have scaled : 0 ≤ t * unity := mul_nonneg nonneg positive.le
  rw [product]
  constructor
  · refine below.trans (div_le_div_of_nonneg_right ?_ positive.le)
    exact mul_le_mul low low (Nat.cast_nonneg _) scaled
  · have first := mul_le_mul_of_nonneg_right high.le scaled
    have second := mul_le_mul_of_nonneg_left high.le (Nat.cast_nonneg argument : (0 : ℝ) ≤ argument)
    have bound := mul_le_mul_of_nonneg_right third positive.le
    have all : t * unity * (t * unity) ≤ argument * argument + unity := by linarith
    have quotient := div_le_div_of_nonneg_right all positive.le
    rw [add_div, div_self positive.ne'] at quotient
    linarith

theorem atanhTerms_near (nonneg : 0 ≤ t) (third : t ≤ 1 / 3) {square : ℕ}
    (squareLow : square ≤ t ^ 2 * unity) (squareHigh : t ^ 2 * unity ≤ square + 2)
    (terms start : ℕ) {power : ℕ} (low : power ≤ t ^ (2 * start + 1) * unity)
    (high : t ^ (2 * start + 1) * unity ≤ power + 2) :
    (atanhTerms square terms power (2 * start + 1) : ℝ) ≤ atanhSum t start terms * unity ∧
      atanhSum t start terms * unity ≤ atanhTerms square terms power (2 * start + 1) + 3 * terms := by
  induction terms generalizing start power with
  | zero => simp [atanhTerms, atanhSum]
  | succ terms ih =>
    have positive : (1 : ℝ) ≤ (2 * start + 1 : ℕ) := by
      exact_mod_cast Nat.succ_le_succ (Nat.zero_le _)
    obtain ⟨nextLow, nextHigh⟩ :=
      nextPower_near nonneg third squareLow squareHigh (Nat.succ_pos _) low high
    obtain ⟨below, above⟩ := ih (start + 1) nextLow nextHigh
    obtain ⟨termLow, termHigh⟩ := div_near power (Nat.succ_pos (2 * start))
    have term : t ^ (2 * start + 1) / (2 * start + 1) * unity =
        t ^ (2 * start + 1) * unity / (2 * start + 1 : ℕ) := by
      push_cast
      ring
    have atMost := div_le_div_of_nonneg_right low (zero_le_one.trans positive)
    have atLeast := div_le_div_of_nonneg_right high (zero_le_one.trans positive)
    have two : (2 : ℝ) / (2 * start + 1 : ℕ) ≤ 2 := div_le_self two_pos.le positive
    rw [add_div] at atLeast
    have next : 2 * start + 1 + 2 = 2 * (start + 1) + 1 := by ring
    rw [atanhTerms, atanhSum_succ, add_mul, term, next]
    push_cast at *
    constructor
    · linarith
    · linarith

end

/-- The logarithm of the larger number over the smaller one, in fixed point. -/
@[irreducible] def fixedLog (numerator denominator : ℕ) : ℕ :=
  let distance := max numerator denominator - min numerator denominator
  let argument := distance * 2 ^ fixedBits / (numerator + denominator)
  2 * atanhTerms (argument * argument / 2 ^ fixedBits) 64 argument 1

theorem logOfRatio_eq (numerator denominator : ℕ) : logOfRatio numerator denominator =
    ofRatio (numerator < denominator) (fixedLog numerator denominator) (2 ^ fixedBits) := by
  rw [logOfRatio, fixedLog]

theorem log_sub_log_eq {high low : ℝ} (lowPositive : 0 < low) (highPositive : 0 < high) :
    Real.log (1 + (high - low) / (high + low)) - Real.log (1 - (high - low) / (high + low)) =
      Real.log (high / low) := by
  have sum : 0 < high + low := add_pos highPositive lowPositive
  have plus : 1 + (high - low) / (high + low) = 2 * high / (high + low) := by
    field_simp
    ring
  have minus : 1 - (high - low) / (high + low) = 2 * low / (high + low) := by
    field_simp
    ring
  rw [plus, minus, ← Real.log_div (by positivity) (by positivity), div_div_div_cancel_right₀ sum.ne',
    mul_div_mul_left _ _ two_ne_zero]

theorem argument_near {high low : ℕ} (ordered : low ≤ high) (positive : 0 < low) :
    (((high - low) * 2 ^ fixedBits / (high + low) : ℕ) : ℝ) ≤ (high - low) / (high + low) * unity ∧
      (high - low) / (high + low) * unity < ((high - low) * 2 ^ fixedBits / (high + low) : ℕ) + 1 := by
  have near := div_near ((high - low) * 2 ^ fixedBits) (Nat.add_pos_right high positive)
  rw [Nat.cast_mul, Nat.cast_sub ordered, Nat.cast_add, Nat.cast_pow, Nat.cast_ofNat, ← unity,
    mul_div_right_comm] at near
  exact near

theorem fixedLog_near (high low : ℕ) (positive : 0 < low) (ordered : low ≤ high)
    (double : high ≤ 2 * low) :
    (fixedLog high low : ℝ) ≤ Real.log (high / low) * unity ∧
      Real.log (high / low) * unity ≤ fixedLog high low + 386 := by
  have unit := unity_pos
  have some : (0 : ℝ) < low := Nat.cast_pos.mpr positive
  have sum : (0 : ℝ) < high + low := by positivity
  obtain ⟨t, isRatio⟩ : ∃ t : ℝ, t = (high - low) / (high + low) := ⟨_, rfl⟩
  have ordered' : (low : ℝ) ≤ high := Nat.cast_le.mpr ordered
  have double' : (high : ℝ) ≤ 2 * low := by exact_mod_cast double
  have nonneg : 0 ≤ t := isRatio ▸ div_nonneg (by linarith) sum.le
  have third : t ≤ 1 / 3 := by
    rw [isRatio, div_le_iff₀ sum]
    linarith
  have logarithm := log_sub_log_eq some (some.trans_le ordered')
  rw [← isRatio] at logarithm
  obtain ⟨argument, isArgument⟩ : ∃ argument : ℕ,
      argument = (high - low) * 2 ^ fixedBits / (high + low) := ⟨_, rfl⟩
  have fixed : fixedLog high low =
      2 * atanhTerms (argument * argument / 2 ^ fixedBits) 64 argument 1 := by
    rw [fixedLog, max_eq_left ordered, min_eq_right ordered, isArgument]
  obtain ⟨argumentLow, argumentHigh⟩ := argument_near ordered positive
  rw [← isArgument, ← isRatio] at argumentLow argumentHigh
  obtain ⟨squareLow, squareHigh⟩ := square_near nonneg third argumentLow argumentHigh
  have first : t ^ (2 * 0 + 1) * unity = t * unity := by rw [Nat.mul_zero, Nat.zero_add, pow_one]
  obtain ⟨termsLow, termsHigh⟩ := atanhTerms_near nonneg third squareLow squareHigh 64 0
    (first.symm ▸ argumentLow) (first.symm ▸ by linarith)
  obtain ⟨sumLow, sumHigh⟩ := atanhSum_near nonneg third 64
  rw [logarithm] at sumLow sumHigh
  have rest : 9 / 4 * t ^ (2 * 64 + 1) * unity ≤ 1 := by
    have power : t ^ (2 * 64 + 1) ≤ (1 / 3) ^ (2 * 64 + 1) := pow_le_pow_left₀ nonneg third _
    calc 9 / 4 * t ^ (2 * 64 + 1) * unity ≤ 9 / 4 * (1 / 3) ^ (2 * 64 + 1) * unity := by gcongr
      _ ≤ 1 := by
        rw [unity, fixedBits]
        norm_num
  have below := mul_le_mul_of_nonneg_right sumLow unit.le
  have above := mul_le_mul_of_nonneg_right sumHigh unit.le
  rw [fixed, Nat.cast_mul, Nat.cast_ofNat]
  rw [Nat.mul_zero, Nat.zero_add] at termsLow termsHigh
  push_cast at termsHigh
  constructor
  · linarith
  · linarith

end ConfigExpr.Binary64
