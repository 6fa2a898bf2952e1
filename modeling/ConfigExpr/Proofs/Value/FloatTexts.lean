import ConfigExpr.Proofs.Number.DecimalTexts
import ConfigExpr.Proofs.Number.NearestFloats
import ConfigExpr.Value.FloatText

/-!
The text of a float inside strings. Read as a decimal number it is the exact value rounded once to
fourteen significant digits, and the exponent after that rounding decides between the notations.
-/
namespace ConfigExpr
open Text

namespace FloatText
variable {x : Binary64} {d : Decimal}

/-- Digits in plain notation down to the last one that was rounded. -/
def plainLiteral (d : Decimal) : DecimalLiteral :=
  DecimalText.trimmed d.digits (precision - 1 - d.leading precision).toNat

/-- A mantissa with one digit before the point and at least one behind it. -/
def scaledLiteral (d : Decimal) : DecimalLiteral :=
  (DecimalText.trimmed d.digits (precision - 1)).withPoint.withExponent
    (.ofInt 'E' (.inr rfl) (d.leading precision))

def literal (d : Decimal) : DecimalLiteral :=
  if isPlain (d.leading precision) then plainLiteral d else scaledLiteral d

theorem exponent_of_isPlain (plain : isPlain (d.leading precision) = true) :
    d.exponent = -((precision - 1 - d.leading precision).toNat : ℤ) := by
  rw [isPlain, Bool.and_eq_true, decide_eq_true_eq, decide_eq_true_eq] at plain
  have below := plain.2
  have leading : d.leading precision = d.exponent + precision - 1 := rfl
  omega

theorem withExponent_eq (d : Decimal) :
    withExponent (DecimalText.ofUnits d.digits (precision - 1)) (d.leading precision) =
      (scaledLiteral d).text := by
  rw [scaledLiteral, DecimalLiteral.text_withExponent rfl, ExponentPart.text_ofInt,
    DecimalLiteral.text_withPoint rfl, withExponent, ← DecimalText.text_trimmed,
    ← DecimalText.contains_point_trimmed]

theorem magnitude_eq_text (finite : x.isFinite = true) (nonzero : x.isZero = false)
    (rounds : d.Rounds x.magnitude precision) : magnitude x = (literal d).text := by
  have mantissa : DecimalText.scientific x (precision - 1) =
      (DecimalText.ofUnits d.digits (precision - 1), d.leading precision) :=
    DecimalText.scientific_eq finite nonzero rounds
  rw [magnitude, mantissa, literal, nonzero]
  dsimp only
  rw [Bool.false_or]
  split
  next plain =>
    rw [DecimalText.fixed_eq finite rounds (exponent_of_isPlain plain), plainLiteral,
      DecimalText.text_trimmed]
  next => exact withExponent_eq d

theorem magnitude_literal (d : Decimal) : (literal d).magnitude = d.value := by
  rw [literal]
  split
  next plain => exact DecimalText.magnitude_fixed (exponent_of_isPlain plain)
  next =>
    have scaled := DecimalText.magnitude_scientific d (precision - 1) 'E' (.inr rfl)
    rw [scaledLiteral, DecimalLiteral.magnitude_withExponent rfl, DecimalLiteral.magnitude_withPoint]
    rwa [DecimalLiteral.magnitude_withExponent rfl] at scaled

theorem sign_literal (d : Decimal) : (literal d).sign = .absent := by
  rw [literal]
  split <;> rfl

theorem trimmed_scaledLiteral (d : Decimal) : ∃ fraction, (scaledLiteral d).fraction = some fraction ∧
    (fraction.chars = ['0'] ∨ fraction.chars.getLast? ≠ some '0') := by
  have trimmed := DecimalText.trimmed_trimmed d.digits (precision - 1)
  have same : (scaledLiteral d).fraction =
      some ((DecimalText.trimmed d.digits (precision - 1)).fraction.getD (.ofNat 0)) := rfl
  refine ⟨_, same, ?_⟩
  cases shown : (DecimalText.trimmed d.digits (precision - 1)).fraction with
  | none => exact .inl rfl
  | some fraction => exact .inr (trimmed fraction shown)

end FloatText

namespace Binary64
variable {x : Binary64}

theorem text_of_finite (finite : x.isFinite = true) (nonzero : x.isZero = false) :
    ∃ l : DecimalLiteral, l.magnitude ≠ 0 ∧
      (x.text.toList = l.text ∨ x.text.toList = '-' :: l.text) := by
  have rounds : (x.toSignificant 14).Rounds x.magnitude 14 :=
    toSignificant_rounds nonzero (by decide)
  refine ⟨FloatText.literal (x.toSignificant 14), ?_, ?_⟩
  · rw [FloatText.magnitude_literal]
    exact rounds.width.value_pos.ne'
  · rw [Binary64.text, isNaN_eq_false finite, isInfinite_eq_false finite,
      FloatText.magnitude_eq_text finite nonzero rounds]
    cases x.isNegative with
    | false => exact .inl String.toList_ofList
    | true => exact .inr String.toList_ofList

theorem text_of_not_finite (endless : x.isFinite = false) :
    x.text = "NAN" ∨ x.text = "INF" ∨ x.text = "-INF" := by
  have exponent : x.exponentField = 2047 := bne_eq_false_iff_eq.mp endless
  rw [Binary64.text, isNaN, isInfinite, exponent, bne]
  cases x.fractionField == 0 with
  | false => exact .inl rfl
  | true =>
    cases x.isNegative with
    | false => exact .inr (.inl rfl)
    | true => exact .inr (.inr rfl)

theorem text_of_nonzero (nonzero : x.isZero = false) : x.text ≠ "" ∧ x.text ≠ "0" := by
  cases finite : x.isFinite with
  | false =>
    obtain shown | shown | shown := text_of_not_finite finite
    all_goals
      rw [shown]
      decide
  | true =>
    rw [← String.toList_inj.ne, ← String.toList_inj.ne]
    obtain ⟨l, someDigit, shown | shown⟩ := text_of_finite finite nonzero
    · rw [shown]
      exact ⟨l.text_ne_nil, fun zero => someDigit (l.magnitude_of_text_zero zero)⟩
    · rw [shown]
      exact ⟨List.cons_ne_nil _ _, by simp⟩

end Binary64

/-- The text of a finite number other than zero is its exact value rounded to fourteen significant
digits. Exponents from -4 to 13, after rounding, are written out, and any other stands behind a
mantissa with one digit before the point; a fraction has no zero at its end but the one that a mantissa
must have. -/
theorem Binary64.text_is_rounded_value {x : Binary64} (finite : x.isFinite = true)
    (nonzero : x.isZero = false) :
    ∃ (d : Decimal) (l : DecimalLiteral), d.Rounds x.magnitude 14 ∧ l.text = x.text.toList ∧
      l.value = (if x.isNegative then -d.value else d.value) ∧
      l.sign = (if x.isNegative then .minus else .absent) ∧
      if -4 ≤ d.leading 14 ∧ d.leading 14 < 14 then l.exponent = none ∧ l.Trimmed
      else l.exponent = some (.ofInt 'E' (.inr rfl) (d.leading 14)) ∧ l.whole.length = 1 ∧
        ∃ fraction, l.fraction = some fraction ∧
          (fraction.chars = ['0'] ∨ fraction.chars.getLast? ≠ some '0') := by
  have rounds : (x.toSignificant 14).Rounds x.magnitude 14 :=
    toSignificant_rounds nonzero (by decide)
  generalize x.toSignificant 14 = d at rounds
  let sign : WrittenSign := if x.isNegative then .minus else .absent
  have unsigned := FloatText.sign_literal d
  refine ⟨d, (FloatText.literal d).withSign sign, rounds, ?_, ?_, rfl, ?_⟩
  · rw [DecimalLiteral.text_withSign unsigned, Binary64.text, isNaN_eq_false finite,
      isInfinite_eq_false finite, FloatText.magnitude_eq_text finite nonzero rounds]
    cases negative : x.isNegative with
    | false | true => simp [sign, negative, WrittenSign.text]
  · rw [DecimalLiteral.value_withSign, FloatText.magnitude_literal]
    cases negative : x.isNegative with
    | false | true => simp [sign, negative, WrittenSign.isMinus]
  · have plain_iff : FloatText.isPlain (d.leading 14) = true ↔ -4 ≤ d.leading 14 ∧ d.leading 14 < 14 := by
      rw [FloatText.isPlain, Bool.and_eq_true, decide_eq_true_eq, decide_eq_true_eq]
      rfl
    by_cases plain : -4 ≤ d.leading 14 ∧ d.leading 14 < 14
    · have shown : FloatText.literal d = FloatText.plainLiteral d := if_pos (plain_iff.mpr plain)
      rw [if_pos plain, shown]
      exact ⟨rfl, DecimalText.trimmed_trimmed _ _⟩
    · have shown : FloatText.literal d = FloatText.scaledLiteral d :=
        if_neg fun holds => plain (plain_iff.mp holds)
      rw [if_neg plain, shown]
      exact ⟨rfl, DecimalText.length_wholeOf _ _ rounds.width.2, FloatText.trimmed_scaledLiteral d⟩

theorem Binary64.text_is_rounded_value_carry :
    let x : Binary64 := ⟨0x3FEFFFFFFFFFFFFF⟩
    x.isFinite = true ∧ x.isZero = false ∧ x.text = "1" ∧
      ∃ (d : Decimal) (l : DecimalLiteral), d.Rounds x.magnitude 14 ∧ l.text = ['1'] ∧
        l.value = d.value ∧ l.sign = .absent := by
  intro x
  have finite : x.isFinite = true := by decide
  have nonzero : x.isZero = false := by decide
  have shown : x.text = "1" := by decide
  have positive : ¬ x.isNegative = true := by decide
  obtain ⟨d, l, rounds, text, value, sign, -⟩ := text_is_rounded_value finite nonzero
  rw [if_neg positive] at value sign
  rw [shown] at text
  exact ⟨finite, nonzero, shown, d, l, rounds, text, value, sign⟩

end ConfigExpr
