import ConfigExpr.Number.Rounding
import Mathlib.Algebra.Order.Field.Rat
import Mathlib.Tactic.Linarith
import Mathlib.Tactic.FieldSimp
import Mathlib.Tactic.Ring
import Mathlib.Tactic.Zify
import Mathlib.Tactic.Positivity

/-!
Rounding a rational number to a whole number. The nearest whole number, with halves going to the even
neighbour, is told by two bounds; there is one for each rational number, and it grows with the number.
-/
namespace ConfigExpr.Number

structure NearestEven (q : ℚ) (m : ℕ) : Prop where
  below : q ≤ m + 1 / 2
  above : m ≤ q + 1 / 2
  even_of_half : q = m + 1 / 2 ∨ m = q + 1 / 2 → m % 2 = 0

namespace NearestEven
variable {q r : ℚ} {m n : ℕ}

theorem mono (atQ : NearestEven q m) (atR : NearestEven r n) (le : q ≤ r) : m ≤ n := by
  by_contra less
  have apart : ((n + 1 : ℕ) : ℚ) ≤ m := Nat.cast_le.mpr (Nat.lt_of_not_le less)
  push_cast at apart
  have mAbove := atQ.above
  have rBelow := atR.below
  -- Both are a half away from the same number between them, so both would be even.
  have next : m = n + 1 := by
    have most : (m : ℚ) ≤ (n + 1 : ℕ) := by push_cast; linarith
    have := Nat.cast_le.mp most
    omega
  have mEven := atQ.even_of_half (.inr (by linarith))
  have nEven := atR.even_of_half (.inl (by linarith))
  omega

theorem unique (atM : NearestEven q m) (atN : NearestEven q n) : m = n :=
  le_antisymm (atM.mono atN le_rfl) (atN.mono atM le_rfl)

theorem of_near (below : q < m + 1 / 2) (above : m < q + 1 / 2) : NearestEven q m where
  below := below.le
  above := above.le
  even_of_half := fun half => half.elim (fun same => absurd same below.ne)
    (fun same => absurd same above.ne)

theorem natCast (m : ℕ) : NearestEven m m :=
  of_near (by linarith) (by linarith)

theorem abs_sub_le_half (nearest : NearestEven q m) : |(m : ℚ) - q| ≤ 1 / 2 := by
  have below := nearest.below
  have above := nearest.above
  exact abs_sub_le_iff.mpr ⟨by linarith, by linarith⟩

theorem half_le_abs_sub (nearest : NearestEven q m) (other : n ≠ m) : 1 / 2 ≤ |(n : ℚ) - q| := by
  have apart : (1 : ℚ) ≤ |(n : ℚ) - m| := by
    have whole : (1 : ℤ) ≤ |(n : ℤ) - m| := Int.one_le_abs (by omega)
    exact_mod_cast whole
  have near := nearest.abs_sub_le_half
  have triangle := abs_sub_le (n : ℚ) q m
  rw [abs_sub_comm q] at triangle
  linarith

theorem abs_sub_le_of_nearest (nearest : NearestEven q m) (n : ℕ) :
    |(m : ℚ) - q| ≤ |(n : ℚ) - q| := by
  by_cases other : n = m
  · rw [other]
  · exact nearest.abs_sub_le_half.trans (nearest.half_le_abs_sub other)

theorem even_of_abs_sub_eq (nearest : NearestEven q m) (other : n ≠ m)
    (same : |(n : ℚ) - q| = |(m : ℚ) - q|) : m % 2 = 0 := by
  have half : |(m : ℚ) - q| = 1 / 2 :=
    le_antisymm nearest.abs_sub_le_half (same ▸ nearest.half_le_abs_sub other)
  rcases abs_cases ((m : ℚ) - q) with ⟨above, -⟩ | ⟨below, -⟩
  · exact nearest.even_of_half (.inr (by linarith))
  · exact nearest.even_of_half (.inl (by linarith))

theorem le_of_le (nearest : NearestEven q m) (le : (n : ℚ) ≤ q) : n ≤ m :=
  (natCast n).mono nearest le

theorem ge_of_ge (nearest : NearestEven q m) (le : q ≤ n) : m ≤ n :=
  nearest.mono (natCast n) le

end NearestEven

theorem roundHalfEven_nearest (numerator : ℕ) {denominator : ℕ} (positive : 0 < denominator) :
    NearestEven (numerator / denominator) (roundHalfEven numerator denominator) := by
  have some : (0 : ℚ) < denominator := Nat.cast_pos.mpr positive
  have left : numerator % denominator < denominator := Nat.mod_lt _ positive
  have ratio : (numerator : ℚ) / denominator = (numerator / denominator : ℕ) +
      (numerator % denominator : ℕ) / denominator := by
    rw [div_eq_iff some.ne', add_mul, div_mul_cancel₀ _ some.ne', ← Nat.cast_mul, ← Nat.cast_add,
      Nat.div_add_mod']
  rw [roundHalfEven, ratio]
  generalize numerator / denominator = quotient
  generalize numerator % denominator = rest at left
  have below : (rest : ℚ) / denominator < 1 := (div_lt_one some).mpr (Nat.cast_lt.mpr left)
  have nonneg : 0 ≤ (rest : ℚ) / denominator := by positivity
  have next : ((quotient + 1 : ℕ) : ℚ) = quotient + 1 := Nat.cast_succ quotient
  rcases lt_trichotomy (2 * rest) denominator with under | half | excess
  · have part : (rest : ℚ) / denominator < 1 / 2 := by
      have under : (2 : ℚ) * rest < denominator := by exact_mod_cast under
      rw [div_lt_iff₀ some]
      linarith
    rw [if_neg (by simp; omega)]
    exact .of_near (by linarith) (by linarith)
  · have part : (rest : ℚ) / denominator = 1 / 2 := by
      have half : (2 : ℚ) * rest = denominator := by exact_mod_cast half
      rw [div_eq_iff some.ne']
      linarith
    rw [part]
    by_cases odd : quotient % 2 = 1
    · rw [if_pos (by simp [half, odd])]
      exact ⟨by linarith, by linarith, fun _ => by omega⟩
    · rw [if_neg (by simp [half, odd])]
      exact ⟨by linarith, by linarith, fun _ => by omega⟩
  · have part : 1 / 2 < (rest : ℚ) / denominator := by
      have excess : (denominator : ℚ) < 2 * rest := by exact_mod_cast excess
      rw [lt_div_iff₀ some]
      linarith
    rw [if_pos (by simp [excess])]
    exact .of_near (by linarith) (by linarith)

end ConfigExpr.Number
