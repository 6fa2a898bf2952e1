import ConfigExpr.Number.Decimal
import ConfigExpr.Proofs.Number.Rounding
import Mathlib.Algebra.Order.Field.Power

/-!
The exact magnitude of a float of 64 bits and its decimal approximations. A decimal of so many
significant digits is told by where the first digit of the exact magnitude stands and by rounding to a
multiple of the last digit's unit; nines that round up carry into a new first digit.
-/
namespace ConfigExpr
open Number

theorem pow_toNat_div {base : ℚ} (nonzero : base ≠ 0) (n : ℤ) :
    base ^ n.toNat / base ^ (-n).toNat = base ^ n := by
  rw [← zpow_natCast, ← zpow_natCast, ← zpow_sub₀ nonzero, Int.toNat_sub_toNat_neg]

theorem Number.roundHalfEven_scaled {base : ℕ} (some : 0 < base) (numerator : ℕ) {denominator : ℕ}
    (bottom : 0 < denominator) (exponent : ℤ) :
    NearestEven ((numerator : ℚ) / denominator / base ^ exponent)
      (roundHalfEven (numerator * base ^ (-exponent).toNat)
        (denominator * base ^ exponent.toNat)) := by
  have nonzero : (base : ℚ) ≠ 0 := Nat.cast_ne_zero.mpr some.ne'
  have below : 0 < denominator * base ^ exponent.toNat := Nat.mul_pos bottom (Nat.pow_pos some)
  have nearest := roundHalfEven_nearest (numerator * base ^ (-exponent).toNat) below
  have same : ((numerator * base ^ (-exponent).toNat : ℕ) : ℚ) /
      (denominator * base ^ exponent.toNat : ℕ) = (numerator : ℚ) / denominator / base ^ exponent := by
    rw [← pow_toNat_div nonzero, div_div_eq_mul_div, div_mul_eq_mul_div, div_div]
    push_cast
    rfl
  rwa [same] at nearest

namespace Binary64
variable {x : Binary64}

/-- The exact magnitude of a finite number. -/
def magnitude (x : Binary64) : ℚ :=
  x.numerator / x.denominator

theorem denominator_pos (x : Binary64) : 0 < x.denominator :=
  Nat.two_pow_pos _

theorem magnitude_eq (x : Binary64) : x.magnitude = x.significand * 2 ^ x.scale := by
  rw [magnitude, numerator, denominator, ← pow_toNat_div two_ne_zero]
  push_cast
  rw [mul_div_assoc]

theorem significand_pos (some : x.isZero = false) : 0 < x.significand := by
  rw [isZero, Bool.and_eq_false_iff, beq_eq_false_iff_ne, beq_eq_false_iff_ne] at some
  rw [significand]
  split <;> omega

theorem numerator_pos (some : x.isZero = false) : 0 < x.numerator :=
  Nat.mul_pos (significand_pos some) (Nat.two_pow_pos _)

theorem magnitude_pos (some : x.isZero = false) : 0 < x.magnitude :=
  div_pos (Nat.cast_pos.mpr (numerator_pos some)) (Nat.cast_pos.mpr x.denominator_pos)

end Binary64

theorem Number.pow_le_of_digitCount {n : ℕ} (positive : 0 < n) :
    10 ^ (digitCount n - 1) ≤ n ∧ n < 10 ^ digitCount n := by
  have some : 0 < digitCount n := Nat.length_toDigits_pos
  refine ⟨?_, (Nat.length_toDigits_le_iff (by decide) some).mp le_rfl⟩
  rcases Nat.eq_zero_or_pos (digitCount n - 1) with single | more
  · rwa [single, Nat.pow_zero]
  · by_contra less
    have short := (Nat.length_toDigits_le_iff (by decide) more).mpr (Nat.lt_of_not_le less)
    rw [← digitCount] at short
    omega

/-- The exponent of ten of the first digit. -/
def LeadsAt (q : ℚ) (lead : ℤ) : Prop :=
  10 ^ lead ≤ q ∧ q < 10 ^ (lead + 1)

theorem LeadsAt.le_of_le {q r : ℚ} {m n : ℤ} (atQ : LeadsAt q m) (atR : LeadsAt r n) (le : q ≤ r) :
    m ≤ n := by
  have less : (10 : ℚ) ^ m < 10 ^ (n + 1) := atQ.1.trans_lt (le.trans_lt atR.2)
  have := (zpow_lt_zpow_iff_right₀ (by norm_num)).mp less
  omega

theorem LeadsAt.unique {q : ℚ} {m n : ℤ} (atM : LeadsAt q m) (atN : LeadsAt q n) : m = n :=
  le_antisymm (atM.le_of_le atN le_rfl) (atN.le_of_le atM le_rfl)

theorem Binary64.leadsAt_leadingExponent {x : Binary64} (some : x.isZero = false) :
    LeadsAt x.magnitude x.leadingExponent := by
  have top := numerator_pos some
  have bottom := x.denominator_pos
  have positive : (0 : ℚ) < x.denominator := Nat.cast_pos.mpr bottom
  rw [LeadsAt, magnitude, le_div_iff₀ positive, div_lt_iff₀ positive, leadingExponent]
  split
  next atLeastOne =>
    obtain ⟨low, high⟩ := pow_le_of_digitCount (Nat.div_pos atLeastOne bottom)
    have count : 0 < digitCount (x.numerator / x.denominator) := Nat.length_toDigits_pos
    generalize digitCount (x.numerator / x.denominator) = count at *
    obtain ⟨n, rfl⟩ := Nat.exists_eq_succ_of_ne_zero count.ne'
    rw [Nat.le_div_iff_mul_le bottom] at low
    rw [Nat.div_lt_iff_lt_mul bottom] at high
    have exponent : ((n + 1 : ℕ) : ℤ) - 1 = (n : ℕ) := by omega
    rw [Nat.succ_eq_add_one, exponent, zpow_natCast]
    exact ⟨by exact_mod_cast low, by exact_mod_cast high⟩
  next belowOne =>
    have less : x.numerator < x.denominator := Nat.lt_of_not_le belowOne
    have quotient : 0 < (x.denominator - 1) / x.numerator := Nat.div_pos (by omega) top
    obtain ⟨low, high⟩ := pow_le_of_digitCount quotient
    have count : 0 < digitCount ((x.denominator - 1) / x.numerator) := Nat.length_toDigits_pos
    generalize digitCount ((x.denominator - 1) / x.numerator) = count at *
    obtain ⟨n, rfl⟩ := Nat.exists_eq_succ_of_ne_zero count.ne'
    rw [Nat.le_div_iff_mul_le top] at low
    rw [Nat.div_lt_iff_lt_mul top] at high
    have exponent : -((n + 1 : ℕ) : ℤ) + 1 = -(n : ℕ) := by omega
    rw [Nat.succ_eq_add_one, exponent, zpow_neg, zpow_neg, zpow_natCast, zpow_natCast,
      inv_mul_le_iff₀ (by positivity), lt_inv_mul_iff₀ (by positivity)]
    have low' : 10 ^ n * x.numerator < x.denominator := by
      rw [Nat.succ_eq_add_one, Nat.add_sub_cancel] at low
      omega
    have high' : x.denominator ≤ 10 ^ (n + 1) * x.numerator := by
      rw [Nat.succ_eq_add_one] at high
      omega
    exact ⟨by exact_mod_cast high', by exact_mod_cast low'⟩

namespace Decimal
variable {d e : Decimal} {q : ℚ} {count : ℕ} {lead : ℤ}

def value (d : Decimal) : ℚ :=
  d.digits * 10 ^ d.exponent

/-- So many digits without zeros in front. -/
def HasDigits (d : Decimal) (count : ℕ) : Prop :=
  10 ^ (count - 1) ≤ d.digits ∧ d.digits < 10 ^ count

theorem HasDigits.count_pos (width : d.HasDigits count) : 0 < count := by
  refine Nat.pos_of_ne_zero fun none => ?_
  obtain ⟨low, high⟩ := width
  rw [none, Nat.pow_zero] at low high
  omega

theorem scaled_bounds (first : LeadsAt q lead) (some : 0 < count) :
    ((10 ^ (count - 1) : ℕ) : ℚ) ≤ q / 10 ^ (lead + 1 - count) ∧
      q / 10 ^ (lead + 1 - count) < ((10 ^ count : ℕ) : ℚ) := by
  obtain ⟨low, high⟩ := first
  have unit : (0 : ℚ) < 10 ^ (lead + 1 - count) := zpow_pos (by norm_num) _
  rw [le_div_iff₀ unit, div_lt_iff₀ unit, Nat.cast_pow, Nat.cast_pow, Nat.cast_ofNat,
    ← zpow_natCast, ← zpow_natCast, ← zpow_add₀ (by norm_num), ← zpow_add₀ (by norm_num)]
  have atLead : ((count - 1 : ℕ) : ℤ) + (lead + 1 - count) = lead := by omega
  have behind : (count : ℤ) + (lead + 1 - count) = lead + 1 := by omega
  rw [atLead, behind]
  exact ⟨low, high⟩

theorem HasDigits.leadsAt (width : d.HasDigits count) : LeadsAt d.value (d.leading count) := by
  have some := width.count_pos
  have unit : (0 : ℚ) < 10 ^ d.exponent := zpow_pos (by norm_num) _
  have first : d.leading count = (count - 1 : ℕ) + d.exponent := by
    rw [leading]
    omega
  have next : d.leading count + 1 = (count : ℕ) + d.exponent := by
    rw [leading]
    omega
  rw [LeadsAt, next, first, value, zpow_add₀ (by norm_num), zpow_add₀ (by norm_num), zpow_natCast,
    zpow_natCast]
  exact ⟨mul_le_mul_of_nonneg_right (by exact_mod_cast width.1) unit.le,
    mul_lt_mul_of_pos_right (by exact_mod_cast width.2) unit⟩

theorem HasDigits.value_pos (width : d.HasDigits count) : 0 < d.value :=
  (zpow_pos (by norm_num) _).trans_le width.leadsAt.1

theorem HasDigits.eq_of_value_eq (width : d.HasDigits count) (width' : e.HasDigits count)
    (same : d.value = e.value) : d = e := by
  have first : d.leading count = e.leading count := width.leadsAt.unique (same ▸ width'.leadsAt)
  have exponent : d.exponent = e.exponent := by
    rw [leading, leading] at first
    omega
  have digits : (d.digits : ℚ) = e.digits := by
    rw [value, value, exponent] at same
    exact mul_right_cancel₀ (zpow_pos (by norm_num) _).ne' same
  cases d
  cases e
  exact Decimal.mk.injEq .. ▸ ⟨Nat.cast_injective digits, exponent⟩

theorem ofRounded_spec {units : ℕ} (exponent : ℤ) (low : 10 ^ (count - 1) ≤ units)
    (high : units ≤ 10 ^ count) (some : 0 < count) :
    (ofRounded count units exponent).HasDigits count ∧
      (ofRounded count units exponent).value = units * 10 ^ exponent := by
  rw [ofRounded]
  split
  next carried =>
    have more : 10 ^ (count - 1) < 10 ^ count := Nat.pow_lt_pow_right (by decide) (by omega)
    refine ⟨⟨le_rfl, more⟩, ?_⟩
    have count_eq : count = count - 1 + 1 := by omega
    rw [value, carried, zpow_add₀ (by norm_num), zpow_one, count_eq, Nat.pow_succ, ← count_eq]
    push_cast
    ring
  next fits => exact ⟨⟨low, high.lt_of_ne fits⟩, rfl⟩

structure Rounds (q : ℚ) (count : ℕ) (d : Decimal) : Prop where
  width : d.HasDigits count
  nearest : ∃ lead units, LeadsAt q lead ∧ NearestEven (q / 10 ^ (lead + 1 - count)) units ∧
    d.value = units * 10 ^ (lead + 1 - count)

namespace Rounds

theorem unique (atD : d.Rounds q count) (atE : e.Rounds q count) : d = e := by
  obtain ⟨lead, units, first, nearest, value⟩ := atD.nearest
  obtain ⟨lead', units', first', nearest', value'⟩ := atE.nearest
  obtain rfl := first.unique first'
  obtain rfl := nearest.unique nearest'
  exact atD.width.eq_of_value_eq atE.width (value.trans value'.symm)

theorem exists_units (rounds : d.Rounds q count) (first : LeadsAt q lead) :
    ∃ units, NearestEven (q / 10 ^ (lead + 1 - count)) units ∧
      d = ofRounded count units (lead + 1 - count) ∧ units ≤ 10 ^ count := by
  obtain ⟨lead', units, first', nearest, same⟩ := rounds.nearest
  obtain rfl := first.unique first'
  have some := rounds.width.count_pos
  obtain ⟨low, high⟩ := scaled_bounds first some
  have most := nearest.ge_of_ge high.le
  obtain ⟨width, value⟩ := ofRounded_spec (lead + 1 - count) (nearest.le_of_le low) most some
  exact ⟨units, nearest, rounds.width.eq_of_value_eq width (same.trans value.symm), most⟩

theorem leading_eq_or (rounds : d.Rounds q count) (first : LeadsAt q lead) :
    d.leading count = lead ∨ d.leading count = lead + 1 ∧ d.value = 10 ^ (lead + 1) := by
  obtain ⟨units, -, rfl, -⟩ := rounds.exists_units first
  have some := rounds.width.count_pos
  rw [ofRounded]
  split
  next =>
    refine .inr ⟨by simp only [leading]; omega, ?_⟩
    have exponent : lead + 1 = (count - 1 : ℕ) + (lead + 1 - count + 1) := by omega
    conv_rhs => rw [exponent, zpow_add₀ (by norm_num), zpow_natCast]
    rw [value]
    push_cast
    rfl
  next =>
    simp only [leading]
    omega

theorem nearest_digits (rounds : d.Rounds q count) :
    NearestEven (q / 10 ^ d.exponent) d.digits := by
  obtain ⟨lead, -, first, -, -⟩ := rounds.nearest
  have some := rounds.width.count_pos
  obtain ⟨units, nearest, rfl, -⟩ := rounds.exists_units first
  obtain ⟨low, high⟩ := scaled_bounds first some
  rw [ofRounded]
  split
  next carried =>
    have tenth : q / 10 ^ (lead + 1 - count + 1) = q / 10 ^ (lead + 1 - count) / 10 := by
      rw [zpow_add₀ (by norm_num), zpow_one, div_div]
    have top : ((10 ^ count : ℕ) : ℚ) = 10 * (10 ^ (count - 1) : ℕ) := by
      have count_eq : count = count - 1 + 1 := by omega
      rw [count_eq, Nat.pow_succ, ← count_eq]
      push_cast
      ring
    have above := nearest.above
    rw [carried, top] at above
    rw [top] at high
    rw [tenth]
    exact .of_near (by linarith) (by linarith)
  next => exact nearest

end Rounds

end Decimal

namespace Binary64
variable {x : Binary64} {count : ℕ}

theorem inUnits_nearest (x : Binary64) (exponent : ℤ) :
    NearestEven (x.magnitude / 10 ^ exponent) (x.inUnits exponent) := by
  have nearest := roundHalfEven_scaled (show 0 < 10 by decide) x.numerator x.denominator_pos exponent
  exact_mod_cast nearest

theorem toSignificant_rounds (nonzero : x.isZero = false) (some : 0 < count) :
    (x.toSignificant count).Rounds x.magnitude count := by
  have first := leadsAt_leadingExponent nonzero
  have nearest := x.inUnits_nearest (x.leadingExponent + 1 - count)
  obtain ⟨low, high⟩ := Decimal.scaled_bounds first some
  obtain ⟨width, value⟩ := Decimal.ofRounded_spec (x.leadingExponent + 1 - count)
    (nearest.le_of_le low) (nearest.ge_of_ge high.le) some
  rw [toSignificant, if_neg (Bool.eq_false_iff.mp nonzero)]
  exact ⟨width, _, _, first, nearest, value⟩

theorem toPlaces_eq_digits {d : Decimal} (rounds : d.Rounds x.magnitude count) {places : ℕ}
    (last : d.exponent = -places) : x.toPlaces places = d.digits := by
  have nearest := x.inUnits_nearest (-places)
  rw [← last] at nearest
  rw [toPlaces, ← last]
  exact nearest.unique rounds.nearest_digits

end Binary64

end ConfigExpr
