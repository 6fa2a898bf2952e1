import ConfigExpr.Number.Arithmetic
import ConfigExpr.Proofs.Number.NearestFloats
import Mathlib.Data.Rat.Floor

/-!
Sums and products of floats against the exact ones. A result has the sign of the exact number and is a
nearest float to it; a number of at most 53 bits is kept as it is.
-/
namespace ConfigExpr.Binary64
open Number

variable {x y : Binary64} {q : ℚ}

/-- The exact value of a finite number. -/
def value (x : Binary64) : ℚ :=
  x.signedNumerator / x.denominator

theorem value_eq (x : Binary64) : x.value = if x.isNegative then -x.magnitude else x.magnitude := by
  rw [value, signedNumerator, magnitude]
  split
  next => rw [Int.cast_neg, neg_div, Int.cast_natCast]
  next => rw [Int.cast_natCast]

theorem abs_value (x : Binary64) : |x.value| = x.magnitude := by
  rw [value_eq]
  split
  next => rw [abs_neg, abs_of_nonneg x.magnitude_nonneg]
  next => exact abs_of_nonneg x.magnitude_nonneg

theorem floor_eq (x : Binary64) : x.floor = ⌊x.value⌋ :=
  (Rat.floor_intCast_div_natCast x.signedNumerator x.denominator).symm

structure Approximates (q : ℚ) (x : Binary64) : Prop where
  magnitude : x.Rounds |q|
  sign : q ≠ 0 → (x.isNegative = true ↔ q < 0)

namespace Approximates

theorem abs_value_sub (approx : x.Approximates q) : |x.value - q| = |x.magnitude - (|q|)| := by
  rw [value_eq]
  rcases lt_trichotomy q 0 with negative | rfl | positive
  · rw [if_pos ((approx.sign negative.ne).mpr negative), abs_of_neg negative, ← abs_neg]
    congr 1
    ring
  · rw [sub_zero, abs_zero, sub_zero]
    split
    next => rw [abs_neg]
    next => rfl
  · rw [if_neg fun negative => positive.not_gt ((approx.sign positive.ne').mp negative),
      abs_of_pos positive]

theorem nearest (approx : x.Approximates q) (small : |q| < overflowThreshold)
    (finite : y.isFinite = true) : |x.value - q| ≤ |y.value - q| := by
  rw [approx.abs_value_sub]
  exact (approx.magnitude.nearest small y finite).trans
    (y.abs_value ▸ abs_abs_sub_abs_le y.value q)

theorem abs_sub_le (approx : x.Approximates q) {n : ℤ} (below : |q| < 2 ^ n) (low : -1021 ≤ n)
    (high : n ≤ 1023) : |x.value - q| ≤ 2 ^ (n - 54) := by
  rw [approx.abs_value_sub]
  exact approx.magnitude.abs_sub_le (abs_nonneg q) below low high

theorem value_eq_of_magnitude_eq (approx : x.Approximates q) (same : x.magnitude = |q|) :
    x.value = q := by
  have distance := approx.abs_value_sub
  rw [same, sub_self, abs_zero, abs_eq_zero] at distance
  exact sub_eq_zero.mp distance

theorem value_eq {units : ℤ} {exponent : ℤ} (approx : x.Approximates (units * 2 ^ exponent))
    (few : units.natAbs < 2 ^ 53) (low : -1074 ≤ exponent)
    (small : |(units : ℚ) * 2 ^ exponent| < overflowThreshold) : x.value = units * 2 ^ exponent := by
  have unsigned : |(units : ℚ) * 2 ^ exponent| = units.natAbs * 2 ^ exponent := by
    rw [abs_mul, abs_of_pos (zpow_pos two_pos exponent : (0 : ℚ) < 2 ^ exponent), Nat.cast_natAbs,
      Int.cast_abs]
  refine approx.value_eq_of_magnitude_eq ?_
  have rounds := approx.magnitude
  rw [unsigned] at rounds small ⊢
  exact rounds.magnitude_eq few low small

end Approximates

theorem ofRatio_approximates {negative : Bool} {numerator denominator : ℕ} (bottom : 0 < denominator)
    (unsigned : (numerator : ℚ) / denominator = |q|) (sign : q ≠ 0 → (negative = true ↔ q < 0)) :
    (ofRatio negative numerator denominator).Approximates q where
  magnitude := unsigned ▸ ofRatio_rounds negative numerator bottom
  sign := by rwa [ofRatio_isNegative]

theorem ofInt_approximates (n : ℤ) : (ofInt n).Approximates n := by
  refine ofRatio_approximates Nat.one_pos ?_ fun _ => ?_
  · rw [Nat.cast_one, div_one, Nat.cast_natAbs, Int.cast_abs]
  · rw [decide_eq_true_eq, Int.cast_lt_zero]

theorem isNegative_iff (nonzero : x.value ≠ 0) : x.isNegative = true ↔ x.value < 0 := by
  have positive : 0 < x.magnitude := x.abs_value ▸ abs_pos.mpr nonzero
  rw [value_eq]
  split
  next negative => exact ⟨fun _ => neg_neg_of_pos positive, fun _ => negative⟩
  next other => exact ⟨fun negative => absurd negative other, fun less => absurd less positive.le.not_gt⟩

theorem mul_approximates (x y : Binary64) : (x.mul y).Approximates (x.value * y.value) := by
  refine ofRatio_approximates (Nat.mul_pos x.denominator_pos y.denominator_pos) ?_ fun nonzero => ?_
  · rw [abs_mul, abs_value, abs_value, Nat.cast_mul, Nat.cast_mul, mul_div_mul_comm]
    rfl
  · have xSign := isNegative_iff (left_ne_zero_of_mul nonzero)
    have ySign := isNegative_iff (right_ne_zero_of_mul nonzero)
    have xSides := lt_or_gt_of_ne (left_ne_zero_of_mul nonzero)
    have ySides := lt_or_gt_of_ne (right_ne_zero_of_mul nonzero)
    rw [bne_iff_ne, ne_eq, Bool.eq_iff_iff, xSign, ySign, mul_neg_iff]
    grind

theorem add_approximates (x y : Binary64) : (x.add y).Approximates (x.value + y.value) := by
  have xPositive : (0 : ℚ) < x.denominator := Nat.cast_pos.mpr x.denominator_pos
  have yPositive : (0 : ℚ) < y.denominator := Nat.cast_pos.mpr y.denominator_pos
  have positive : (0 : ℚ) < (x.denominator * y.denominator : ℕ) :=
    Nat.cast_pos.mpr (Nat.mul_pos x.denominator_pos y.denominator_pos)
  have sum : x.value + y.value =
      ((x.signedNumerator * y.denominator + y.signedNumerator * x.denominator : ℤ) : ℚ) /
        (x.denominator * y.denominator : ℕ) := by
    rw [value, value, div_add_div _ _ xPositive.ne' yPositive.ne']
    push_cast
    ring
  rw [sum, add]
  generalize x.signedNumerator * y.denominator + y.signedNumerator * x.denominator = total
  refine ofRatio_approximates (Nat.mul_pos x.denominator_pos y.denominator_pos) ?_ fun nonzero => ?_
  · rw [abs_div, abs_of_pos positive, Nat.cast_natAbs, Int.cast_abs]
  · have some : total ≠ 0 := fun none => nonzero (by rw [none, Int.cast_zero, zero_div])
    rw [div_lt_iff₀ positive, zero_mul, Int.cast_lt_zero]
    simp [some]

end ConfigExpr.Binary64
