import ConfigExpr.Proofs.Text.RadixNumerals
import ConfigExpr.Standard.ConversionFunctions

/-!
Integers of texts in a base. In every base but ten, a text has the exact value of the numeral that it
starts with, clamped to 64 bits. No step on the way there overflows: the magnitude of the digits so
far is exact, and so is its negative, or it is beyond 63 bits.
-/
namespace ConfigExpr.Standard
open Text Radix Scan

theorem integerValue_call (text : String) (base : Int64) (context : Context) :
    integerValue.call [.string text, .integer base] context =
      if base.toInt ≠ 0 ∧ (base.toInt < 2 ∨ 36 < base.toInt) then
        .error (.failed "intval" "Argument #2 ($base) must be between 2 and 36 (inclusive), or 0")
      else .ok (.integer (integerIn base.toInt.toNat (.string text))) := rfl

theorem integerValue_call_radix {base : ℕ} (range : base = 0 ∨ 2 ≤ base ∧ base ≤ 36)
    (notTen : base ≠ 10) (text : String) (context : Context) :
    integerValue.call [.string text, .integer (Int64.ofNat base)] context =
      .ok (.integer (Radix.parse base text)) := by
  have exact : (Int64.ofNat base).toInt = base := Int64.toInt_ofNat_of_lt (by omega)
  have allowed : ¬ ((base : ℤ) ≠ 0 ∧ ((base : ℤ) < 2 ∨ 36 < (base : ℤ))) := by omega
  rw [integerValue_call, exact, if_neg allowed, Int.toNat_natCast, integerIn, if_neg notTen]

/-- A text is taken for a numeral in the base, and its integer is the exact value of that numeral,
clamped to 64 bits. Whatever digits have been read, their magnitude and its negative are exact, or the
magnitude is beyond 63 bits. -/
theorem integers_in_bases_saturate {base : ℕ} (range : base = 0 ∨ 2 ≤ base ∧ base ≤ 36)
    (notTen : base ≠ 10) (context : Context) :
    (∀ text : String, ∃ n : RadixNumeral base, n.text = text.toList) ∧
    ∀ n : RadixNumeral base,
      (∃ value : Int64, value.toInt = max (-2 ^ 63) (min n.value (2 ^ 63 - 1)) ∧
        integerValue.call [.string (String.ofList n.text), .integer (Int64.ofNat base)] context =
          .ok (.integer value)) ∧
      ∀ count,
        let digits := n.values.take count
        (∀ m, magnitude? n.used digits = some m →
          m.toInt = ofDigits n.used digits ∧ (-m).toInt = -(ofDigits n.used digits : ℤ)) ∧
        (magnitude? n.used digits = none ↔ 2 ^ 63 ≤ ofDigits n.used digits) := by
  refine ⟨fun text => RadixNumeral.exists_text_eq base text.toList, fun n => ?_⟩
  have small : n.used ≤ 36 := (n.marked.used_bounds range).2
  refine ⟨⟨_, n.toInt_parse_text small, integerValue_call_radix range notTen _ context⟩, fun count => ?_⟩
  exact magnitude?_exact small fun digit member => n.lt_used (List.mem_of_mem_take member)

/-- The smallest integer, with more text behind its digits. -/
def smallestInHex : RadixNumeral 16 where
  blanks := [' ']
  sign := .minus
  mark := ['0', 'X']
  used := 16
  digits := '8' :: List.replicate 15 '0'
  rest := ['g']
  blank := List.all_eq_true.mp rfl
  starts := stops_cons rfl
  unsigned := nofun
  marked := .letter (by decide) (.inr rfl) _
  known := List.all_eq_true.mp rfl
  ends := stops_cons rfl

theorem integers_in_bases_saturate_smallest :
    (16 = 0 ∨ 2 ≤ 16 ∧ 16 ≤ 36) ∧ 16 ≠ 10 ∧ smallestInHex.text = " -0X8000000000000000g".toList ∧
      smallestInHex.value = -2 ^ 63 ∧
      integerValue.call [.string " -0X8000000000000000g", .integer 16] ⟨0, 0⟩ =
        .ok (.integer Int64.minValue) := by
  have text : smallestInHex.text = " -0X8000000000000000g".toList := by decide
  have value : smallestInHex.value = -2 ^ 63 := by decide
  have range : 16 = 0 ∨ 2 ≤ 16 ∧ 16 ≤ 36 := by decide
  have notTen : 16 ≠ 10 := by decide
  obtain ⟨⟨n, exact, call⟩, -⟩ := (integers_in_bases_saturate range notTen ⟨0, 0⟩).2 smallestInHex
  rw [value] at exact
  obtain rfl : n = Int64.minValue := Int64.toInt_inj.mp exact
  rw [text, String.ofList_toList] at call
  exact ⟨range, notTen, text, value, call⟩

end ConfigExpr.Standard
