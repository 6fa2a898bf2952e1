import ConfigExpr.Proofs.Value.NumericPrefixes
import ConfigExpr.Value.Kind

/-!
Texts as numbers. A text that starts with a number coerces to what that number coerces to, and any
other text does not coerce to a number at all. The exception is a number that is too large for a
finite float: as a float it has no integer, but its text still has the outermost one of its sign.
-/
namespace ConfigExpr
open Text NumericPrefix

theorem Binary64.isFinite_of_isInfinite {x : Binary64} (infinite : x.isInfinite = true) :
    x.isFinite = false := by
  simp only [isInfinite, Bool.and_eq_true, beq_iff_eq] at infinite
  rw [isFinite, infinite.1]
  rfl

theorem Binary64.toInt64_of_isInfinite {x : Binary64} (infinite : x.isInfinite = true) :
    x.toInt64 = if x.isNegative then Int64.minValue else Int64.maxValue := by
  have number : x.isNaN = false := by
    simp only [isInfinite, Bool.and_eq_true, beq_iff_eq] at infinite
    rw [isNaN, infinite.2]
    exact Bool.and_false _
  rw [toInt64, number, infinite]
  rfl

namespace NumericPrefix
variable {l : DecimalLiteral} {s : String} {n : Value}

/-- The number at the start of a text is rounded to an infinite float. -/
def Overflows (s : String) : Prop :=
  ∃ l : DecimalLiteral, l.LongestAt (stripStart isBlank s.toList) ∧
    Binary64.overflowThreshold ≤ countedMagnitude l

theorem exists_longestAt_of_parse? (read : parse? s = some n) :
    ∃ l : DecimalLiteral, l.LongestAt (stripStart isBlank s.toList) ∧ n = (Parts.of l).value := by
  obtain ⟨p, taken, rfl⟩ := Option.map_eq_some_iff.mp read
  obtain ⟨shorter, starts⟩ := exists_literal_of_parts? taken
  obtain ⟨l, longest⟩ := DecimalLiteral.exists_longestAt starts
  have same := taken.symm.trans (parts?_of_longestAt longest)
  exact ⟨l, longest, congrArg Parts.value (Option.some.inj same)⟩

theorem countedMagnitude_lt_of_integer {m : Int64} (integer : (Parts.of l).value = .integer m) :
    countedMagnitude l < Binary64.overflowThreshold := by
  obtain ⟨-, bare, value⟩ := value_eq_integer_iff.mp integer
  have counted : countedMagnitude l = l.magnitude := by
    rw [countedMagnitude, DecimalLiteral.magnitude, countedPower, DecimalLiteral.power, bare]
    rfl
  have low : (-2 ^ 63 : ℚ) ≤ m.toInt := by exact_mod_cast m.le_toInt
  have high : (m.toInt : ℚ) < 2 ^ 63 := by exact_mod_cast m.toInt_lt
  have bound : l.magnitude ≤ 2 ^ 63 := by
    rw [DecimalLiteral.value] at value
    split at value <;> linarith
  have large : (2 : ℚ) ^ (63 : ℤ) < 2 ^ (1023 : ℤ) :=
    zpow_lt_zpow_right₀ (by norm_num) (by norm_num)
  rw [counted]
  exact bound.trans_lt (large.trans_le Binary64.two_zpow_le_overflowThreshold)

theorem overflows_iff (read : parse? s = some n) :
    Overflows s ↔ ∃ x, n = .float x ∧ x.isInfinite = true := by
  constructor
  · rintro ⟨l, longest, large⟩
    obtain rfl := Option.some.inj (read.symm.trans (parse?_of_longestAt longest))
    rcases value_eq_float_or_integer (Parts.of l) with ⟨m, integer⟩ | float
    · exact absurd large (countedMagnitude_lt_of_integer integer).not_ge
    · exact ⟨_, float, (toFloat_rounds l).overflows large⟩
  · rintro ⟨x, rfl, infinite⟩
    obtain ⟨l, longest, value⟩ := exists_longestAt_of_parse? read
    refine ⟨l, longest, not_lt.mp fun small => ?_⟩
    rcases value_eq_float_or_integer (Parts.of l) with ⟨m, integer⟩ | float
    · cases value.trans integer
    · obtain rfl := Value.float.inj (value.trans float)
      have finite := (toFloat_rounds l).finite small
      rw [Binary64.isFinite_of_isInfinite infinite] at finite
      cases finite

theorem number_cases (read : parse? s = some n) :
    (∃ m, n = .integer m) ∨ ∃ x, n = .float x ∧ (x.isFinite = true ∨ x.isInfinite = true) := by
  obtain ⟨l, -, rfl⟩ := exists_longestAt_of_parse? read
  refine (value_eq_float_or_integer (Parts.of l)).imp_right fun float => ⟨_, float, ?_⟩
  exact (lt_or_ge (countedMagnitude l) Binary64.overflowThreshold).imp
    (toFloat_rounds l).finite (toFloat_rounds l).overflows

end NumericPrefix

namespace Value
variable {s : String} {n : Value}

theorem integer?_string (read : parse? s = some n) :
    (string s).integer? = some n.numberToInteger :=
  congrArg (Option.map numberToInteger) read

theorem float?_string (read : parse? s = some n) : (string s).float? = n.float? := by
  have text : (string s).float? = some n.numberToFloat := congrArg (Option.map numberToFloat) read
  rw [text]
  rcases number_cases read with ⟨m, rfl⟩ | ⟨x, rfl, -⟩
  · rfl
  · rfl

theorem integer?_string_eq (read : parse? s = some n) (fits : ¬ Overflows s) :
    (string s).integer? = n.integer? := by
  rw [integer?_string read]
  rcases number_cases read with ⟨m, rfl⟩ | ⟨x, rfl, finite | infinite⟩
  · rfl
  · rw [integer?, if_pos finite]
    rfl
  · exact absurd ((overflows_iff read).mpr ⟨x, rfl, infinite⟩) fits

theorem integer?_of_digits {m : Int64} {blanks digits : List Char} {sign : WrittenSign}
    (blank : ∀ c ∈ blanks, isBlank c = true) (ascii : ∀ c ∈ digits, isAsciiDigit c = true)
    (filled : digits ≠ [])
    (value : (if sign.isMinus then -(decimalValue digits : ℤ) else decimalValue digits) = m.toInt) :
    (string (String.ofList (blanks ++ (sign.text ++ digits)))).integer? = some m := by
  let l : DecimalLiteral := ⟨sign, digits, none, none, ascii, fun none => absurd none filled⟩
  have text : l.text = sign.text ++ digits :=
    (List.append_nil _).trans (List.append_nil _)
  have longest : l.LongestAt
      (stripStart isBlank (String.ofList (blanks ++ (sign.text ++ digits))).toList) := by
    rw [String.toList_ofList, stripStart, List.dropWhile_append_of_pos blank, ← text, ← stripStart,
      stripStart_text]
    exact .self l
  have integer : (Parts.of l).value = .integer m := by
    refine value_eq_integer_iff.mpr ⟨rfl, rfl, ?_⟩
    rw [value_eq_signed rfl rfl]
    exact congrArg Int.cast value
  exact integer?_string ((parse?_of_longestAt longest).trans (congrArg some integer))

/-- A text coerces to a float as the number at its start does, and to an integer unless that number is
infinite as a float. Then the text has an integer where its number has none. -/
theorem texts_coerce_like_their_numbers (s : String) :
    (parse? s = none →
      (string s).integer? = none ∧ (string s).float? = none ∧
      Kind.integer.accepts (.string s) = false ∧ Kind.float.accepts (.string s) = false) ∧
    ∀ n, parse? s = some n →
      (string s).float? = n.float? ∧ Kind.float.accepts (.string s) = Kind.float.accepts n ∧
      (¬ Overflows s → (string s).integer? = n.integer? ∧
        Kind.integer.accepts (.string s) = Kind.integer.accepts n) ∧
      (Overflows s → ∃ x, n = .float x ∧ n.integer? = none ∧
        (string s).integer? = some (if x.isNegative then Int64.minValue else Int64.maxValue) ∧
        Kind.integer.accepts (.string s) = true ∧ Kind.integer.accepts n = false) := by
  refine ⟨fun none => ?_, fun n read => ?_⟩
  · have integer : (string s).integer? = .none := congrArg (Option.map numberToInteger) none
    have float : (string s).float? = .none := congrArg (Option.map numberToFloat) none
    exact ⟨integer, float, congrArg Option.isSome integer, congrArg Option.isSome float⟩
  · have float := float?_string read
    refine ⟨float, congrArg Option.isSome float, fun fits => ?_, fun overflows => ?_⟩
    · have integer := integer?_string_eq read fits
      exact ⟨integer, congrArg Option.isSome integer⟩
    · obtain ⟨x, rfl, infinite⟩ := (overflows_iff read).mp overflows
      have number : (Value.float x).integer? = none := by
        rw [integer?, Binary64.isFinite_of_isInfinite infinite]
        rfl
      have text := integer?_string read
      rw [numberToInteger, Binary64.toInt64_of_isInfinite infinite] at text
      exact ⟨x, rfl, number, text, congrArg Option.isSome text, congrArg Option.isSome number⟩

theorem texts_coerce_like_their_numbers_fraction :
    parse? "" = none ∧ (string "").float? = none ∧
    parse? " -7.5e1x" = some (.float ⟨0xC052C00000000000⟩) ∧ ¬ Overflows " -7.5e1x" ∧
      (string " -7.5e1x").integer? = some (-75) ∧
    parse? "-1e999" = some (.float (.infinity true)) ∧ Overflows "-1e999" ∧
      (string "-1e999").integer? = some Int64.minValue := by
  have none : parse? "" = none := by rfl
  have finite : parse? " -7.5e1x" = some (.float ⟨0xC052C00000000000⟩) := by rfl
  have infinite : parse? "-1e999" = some (.float (.infinity true)) := by rfl
  have fits : ¬ Overflows " -7.5e1x" := by
    rw [overflows_iff finite]
    rintro ⟨x, same, large⟩
    obtain rfl := Value.float.inj same
    exact absurd large (by decide)
  have overflows : Overflows "-1e999" := (overflows_iff infinite).mpr ⟨_, rfl, by decide⟩
  have text := ((texts_coerce_like_their_numbers " -7.5e1x").2 _ finite).2.2.1 fits
  obtain ⟨x, same, -, integer, -⟩ :=
    ((texts_coerce_like_their_numbers "-1e999").2 _ infinite).2.2.2 overflows
  obtain rfl := Value.float.inj same
  exact ⟨none, ((texts_coerce_like_their_numbers "").1 none).2.1, finite, fits, text.1, infinite,
    overflows, integer⟩

/-- The text is accepted for an integer, and the number that it denotes is not. -/
theorem infinite_text_has_integer :
    parse? "1e999" = some (.float (.infinity false)) ∧
      (string "1e999").integer? = some Int64.maxValue ∧
      (float (.infinity false)).integer? = none ∧
      Kind.integer.accepts (.string "1e999") = true ∧
      Kind.integer.accepts (.float (.infinity false)) = false :=
  ⟨by rfl, by rfl, by rfl, by rfl, by rfl⟩

end Value

end ConfigExpr
