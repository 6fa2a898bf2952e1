import ConfigExpr.Proofs.Standard.FilledTemplates
import ConfigExpr.Proofs.Standard.IntegerValues
import ConfigExpr.Proofs.Template.IntegerFields
import ConfigExpr.Proofs.Value.NumericTexts

/-!
Whole numbers that are formatted and read back. In decimal digits every integer comes back, and in
binary, octal and hexadecimal digits every integer that is not negative does. The digits of a negative
one are those of its word of 64 bits, which is beyond the largest integer.
-/
namespace ConfigExpr.Standard
open Text Scan Radix Template

theorem isBlank_of_mem_replicate {blanks : ℕ} :
    ∀ c ∈ List.replicate blanks ' ', isBlank c = true := by
  intro c member
  rw [List.eq_of_mem_replicate member]
  rfl

def signOf (layout : Layout) (n : Int64) : WrittenSign :=
  if n.toInt < 0 then .minus else if layout.plusSign then .plus else .absent

theorem text_signOf (layout : Layout) (n : Int64) : (signOf layout n).text = integerSign layout n := by
  rw [signOf, integerSign, plusOrNone]
  split
  next => rfl
  next => split <;> rfl

theorem isMinus_signOf (layout : Layout) (n : Int64) :
    (signOf layout n).isMinus = decide (n.toInt < 0) := by
  rw [signOf]
  split
  next negative => exact (decide_eq_true negative).symm
  next nonneg =>
    rw [decide_eq_false nonneg]
    split <;> rfl

theorem integer?_formatted (layout : Layout) (n : Int64) (blanks zeros : ℕ) :
    (Value.string (String.ofList (List.replicate blanks ' ' ++ (integerSign layout n ++
      (List.replicate zeros '0' ++ Numeral.ofNat n.toInt.natAbs))))).integer? = some n := by
  have ascii : ∀ c ∈ List.replicate zeros '0' ++ Numeral.ofNat n.toInt.natAbs,
      isAsciiDigit c = true := by
    refine List.forall_mem_append.mpr ⟨fun c zero => ?_, fun c => Numeral.isAsciiDigit_of_mem_ofNat⟩
    rw [List.eq_of_mem_replicate zero]
    rfl
  have value : decimalValue (List.replicate zeros '0' ++ Numeral.ofNat n.toInt.natAbs) =
      n.toInt.natAbs := by
    rw [Numeral.decimalValue_append, Numeral.decimalValue_replicate_zero, Numeral.decimalValue_ofNat,
      Nat.zero_mul, Nat.zero_add]
  rw [← text_signOf]
  refine Value.integer?_of_digits isBlank_of_mem_replicate ascii
    (List.append_ne_nil_of_right_ne_nil _ (Numeral.ofNat_ne_nil _)) ?_
  rw [value, isMinus_signOf]
  by_cases negative : n.toInt < 0
  · rw [decide_eq_true negative, if_pos rfl]
    omega
  · rw [decide_eq_false negative, if_neg Bool.false_ne_true]
    omega

theorem ofNat_toNat_toUInt64 (n : Int64) : Int64.ofNat n.toUInt64.toNat = n :=
  Int64.ofNat_bitVecToNat n.toBitVec

theorem toNat_toUInt64_lt_iff (n : Int64) : n.toUInt64.toNat < 2 ^ 63 ↔ 0 ≤ n.toInt := by
  have word : n.toUInt64.toNat < 2 ^ 64 := n.toUInt64.toNat_lt
  have signed : n.toInt = if 2 * n.toUInt64.toNat < 2 ^ 64 then (n.toUInt64.toNat : ℤ)
      else n.toUInt64.toNat - (2 ^ 64 : ℕ) := BitVec.toInt_eq_toNat_cond n.toBitVec
  rw [signed]
  split <;> omega

theorem parse_word {base : ℕ} {digits : List Char} {n : Int64}
    (spells : Spells base digits n.toUInt64.toNat) (given : base ≠ 0) (small : base ≤ 36)
    (blanks zeros : ℕ) :
    parse base (String.ofList (List.replicate blanks ' ' ++ (List.replicate zeros '0' ++ digits))) =
      if 0 ≤ n.toInt then n else Int64.maxValue := by
  have padded := spells.behind_zeros (Nat.pos_of_ne_zero given) zeros
  rw [padded.parse_eq given small isBlank_of_mem_replicate, ofNat_toNat_toUInt64]
  exact if_congr (toNat_toUInt64_lt_iff n) rfl rfl

/-- An integer is formatted whatever the width, as long as the output may get so long. Its decimal
digits coerce to it, and its digits in another base are read as it or, if it is negative, as the
largest integer. -/
theorem formatted_integers_are_read_back (n : Int64) {flags : List Flag}
    (leading : ∀ flag ∈ flags, flag ∈ leadingFlags) {width : Option ℕ}
    (narrow : width.getD 0 ≤ outputLimit) (context : Context) :
    (∃ text, formatted.call [.string (numberTemplate flags width 'd'), .integer n] context =
        .ok (.string text) ∧ (Value.string text).integer? = some n) ∧
    ∀ specifier base, (specifier, base) ∈ radixSpecifiers → ∃ text,
      formatted.call [.string (numberTemplate flags width specifier), .integer n] context =
          .ok (.string text) ∧
        integerValue.call [.string text, .integer (Int64.ofNat base)] context =
          .ok (.integer (if 0 ≤ n.toInt then n else Int64.maxValue)) := by
  refine ⟨?_, fun specifier base known => ?_⟩
  · have known : 'd' ∈ specifiers := by decide
    obtain ⟨d, decimal, formats⟩ := format_numberTemplate "sprintf" leading narrow known (.integer n)
    have spells : Spells 10 (Numeral.ofNat n.toInt.natAbs) n.toInt.natAbs :=
      .toDigits (by decide) (by decide) _
    have short : (Numeral.ofNat n.toInt.natAbs).length ≤ 64 := by
      have low := n.le_toInt
      have high := n.toInt_lt
      exact length_toDigits_le (by decide) (by omega)
    obtain ⟨blanks, zeros, result⟩ := formats (show?_decimal n decimal) spells short
    exact ⟨_, (formatted_call _ _ context).trans result, integer?_formatted d.layout n blanks zeros⟩
  · have each : ∀ r ∈ radixSpecifiers, r.1 ∈ specifiers ∧ 2 ≤ r.2 ∧ r.2 ≤ 36 ∧ r.2 ≠ 10 := by decide
    obtain ⟨specified, wide, small, notTen⟩ := each _ known
    obtain ⟨d, rfl, formats⟩ :=
      format_numberTemplate "sprintf" leading narrow specified (.integer n)
    obtain ⟨digits, shows, short, spells⟩ := show?_radix n known
    obtain ⟨blanks, zeros, result⟩ := formats shows spells short
    refine ⟨_, (formatted_call _ _ context).trans result, ?_⟩
    rw [integerValue_call_radix (.inr ⟨wide, small⟩) notTen, List.nil_append,
      parse_word spells (Nat.ne_zero_of_lt wide) small]

theorem formatted_integers_are_read_back_negative :
    (∀ flag ∈ [Flag.plus, .zeros], flag ∈ leadingFlags) ∧ (some 6).getD 0 ≤ outputLimit ∧
      numberTemplate [.plus, .zeros] (some 6) 'd' = "%+06d" ∧
      formatted.call [.string "%+06d", .integer (-42)] ⟨0, 0⟩ = .ok (.string "-00042") ∧
      (Value.string "-00042").integer? = some (-42) ∧
      numberTemplate [.plus, .zeros] (some 6) 'x' = "%+06x" ∧
      formatted.call [.string "%+06x", .integer (-42)] ⟨0, 0⟩ = .ok (.string "ffffffffffffffd6") ∧
      integerValue.call [.string "ffffffffffffffd6", .integer 16] ⟨0, 0⟩ =
        .ok (.integer Int64.maxValue) := by
  have leading : ∀ flag ∈ [Flag.plus, .zeros], flag ∈ leadingFlags := by decide
  have narrow : (some 6).getD 0 ≤ outputLimit := by decide
  have decimal : numberTemplate [.plus, .zeros] (some 6) 'd' = "%+06d" := by decide
  have hex : numberTemplate [.plus, .zeros] (some 6) 'x' = "%+06x" := by decide
  have signed : formatted.call [.string "%+06d", .integer (-42)] ⟨0, 0⟩ =
      .ok (.string "-00042") := by
    have rendered : renderBytes "%+06d" [.integer (-42)] =
        .ok (Utf8.encodeChars ['-', '0', '0', '0', '4', '2']) := by rfl
    rw [formatted_call, format, rendered]
    exact congrArg Except.ok (ofBytes_encodeChars _)
  have word : formatted.call [.string "%+06x", .integer (-42)] ⟨0, 0⟩ =
      .ok (.string "ffffffffffffffd6") := by
    have rendered : renderBytes "%+06x" [.integer (-42)] =
        .ok (Utf8.encodeChars (List.replicate 14 'f' ++ ['d', '6'])) := by rfl
    rw [formatted_call, format, rendered]
    exact congrArg Except.ok (ofBytes_encodeChars _)
  obtain ⟨⟨text, formatted, integer⟩, words⟩ :=
    formatted_integers_are_read_back (-42) leading narrow ⟨0, 0⟩
  obtain ⟨digits, shown, read⟩ := words 'x' 16 (by decide)
  rw [decimal, signed] at formatted
  rw [hex, word] at shown
  obtain rfl := Value.string.inj (Except.ok.inj formatted)
  obtain rfl := Value.string.inj (Except.ok.inj shown)
  rw [if_neg (by decide)] at read
  exact ⟨leading, narrow, decimal, signed, integer, hex, word, read⟩

end ConfigExpr.Standard
