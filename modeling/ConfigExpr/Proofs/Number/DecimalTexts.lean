import ConfigExpr.Number.DecimalText
import ConfigExpr.Proofs.Number.Decimals
import ConfigExpr.Proofs.Text.DecimalLiterals
import Mathlib.Tactic.Ring

/-!
The texts of decimals read back. A number in units of its last decimal place is written as a decimal
literal of that value, and stays one when the zeros that end its fraction are removed.
-/
namespace ConfigExpr.DecimalText
open Text Numeral Scan

theorem stripEnd_append (p : Char → Bool) (text : List Char) :
    stripEnd p text ++ (text.reverse.takeWhile p).reverse = text := by
  rw [stripEnd, ← List.reverse_append, List.takeWhile_append_dropWhile, List.reverse_reverse]

theorem getLast?_stripEnd_zero (text : List Char) :
    (stripEnd (· == '0') text).getLast? ≠ some '0' := by
  intro last
  rw [List.getLast?_eq_head?_reverse, stripEnd, List.reverse_reverse] at last
  have other := List.head?_dropWhile_not (· == '0') text.reverse
  rw [last] at other
  exact absurd other (by decide)

theorem mem_of_mem_stripEnd {p : Char → Bool} {text : List Char} {c : Char}
    (member : c ∈ stripEnd p text) : c ∈ text :=
  stripEnd_append p text ▸ List.mem_append_left _ member

theorem decimalValue_stripEnd_zero (whole fraction : List Char) :
    ∃ zeros, fraction.length = (stripEnd (· == '0') fraction).length + zeros ∧
      decimalValue (whole ++ fraction) =
        decimalValue (whole ++ stripEnd (· == '0') fraction) * 10 ^ zeros := by
  let removed := (fraction.reverse.takeWhile (· == '0')).reverse
  have split : stripEnd (· == '0') fraction ++ removed = fraction :=
    stripEnd_append (· == '0') fraction
  have zeros : removed = List.replicate removed.length '0' := by
    refine List.eq_replicate_iff.mpr ⟨rfl, fun c member => ?_⟩
    exact eq_of_beq (List.all_eq_true.mp List.all_takeWhile c (List.mem_reverse.mp member))
  have nothing : decimalValue removed = 0 := by
    rw [zeros, decimalValue_eq_ofDigitChars, Nat.ofDigitChars_replicate_zero, Nat.mul_zero]
  refine ⟨removed.length, ?_, ?_⟩
  · conv_lhs => rw [← split, List.length_append]
  · conv_lhs => rw [← split, ← List.append_assoc, decimalValue_append, nothing, Nat.add_zero]

theorem point_not_mem {digits : List Char} (ascii : ∀ c ∈ digits, isAsciiDigit c = true) :
    '.' ∉ digits :=
  fun point => absurd (ascii '.' point) (by decide)

theorem stripFractionZeros_of_digits {digits : List Char}
    (ascii : ∀ c ∈ digits, isAsciiDigit c = true) : stripFractionZeros digits = digits :=
  if_neg fun point => point_not_mem ascii (List.contains_iff_mem.mp point)

theorem stripFractionZeros_eq {whole fraction : List Char}
    (wholeAscii : ∀ c ∈ whole, isAsciiDigit c = true)
    (ascii : ∀ c ∈ fraction, isAsciiDigit c = true) :
    stripFractionZeros (whole ++ '.' :: fraction) =
      if stripEnd (· == '0') fraction = [] then whole
      else whole ++ '.' :: stripEnd (· == '0') fraction := by
  have noPoint {digits : List Char} (ascii : ∀ c ∈ digits, isAsciiDigit c = true) :
      ∀ c ∈ digits, (c == '.') = false := fun c member =>
    beq_eq_false_iff_ne.mpr fun point => point_not_mem ascii (point ▸ member)
  have point : (whole ++ '.' :: fraction).contains '.' = true :=
    List.contains_iff_mem.mpr (List.mem_append_right _ List.mem_cons_self)
  have flipped : (whole ++ '.' :: fraction).reverse = fraction.reverse ++ '.' :: whole.reverse := by
    rw [List.reverse_append, List.reverse_cons, List.append_assoc, List.singleton_append]
  have kept : (stripEnd (· == '0') fraction).reverse = fraction.reverse.dropWhile (· == '0') :=
    List.reverse_reverse _
  rw [stripFractionZeros, if_pos point, flipped, List.dropWhile_append, ← kept]
  dsimp only
  split
  next gone =>
    have nothing : stripEnd (· == '0') fraction = [] :=
      List.reverse_eq_nil_iff.mp (List.isEmpty_iff.mp gone)
    have bare : whole.reverse.dropWhile (· == '.') = whole.reverse := dropWhile_stops fun c first =>
      noPoint wholeAscii c (List.mem_reverse.mp (List.mem_of_head? first))
    rw [if_pos nothing, List.dropWhile_cons_of_neg (by decide), List.dropWhile_cons_of_pos rfl, bare,
      List.reverse_reverse]
  next some =>
    have more : stripEnd (· == '0') fraction ≠ [] := fun nothing => some (by rw [nothing]; rfl)
    have stops : Stops (· == '.')
        ((stripEnd (· == '0') fraction).reverse ++ '.' :: whole.reverse) :=
      stops_append (List.reverse_ne_nil_iff.mpr more) fun c member =>
        noPoint ascii c (mem_of_mem_stripEnd (List.mem_reverse.mp member))
    rw [if_neg more, dropWhile_stops stops, List.reverse_append, List.reverse_cons,
      List.reverse_reverse, List.reverse_reverse, List.append_assoc, List.singleton_append]

section
variable (units places : ℕ)

def wholeOf : List Char :=
  (padded (places + 1) units).take ((padded (places + 1) units).length - places)

def fractionOf : List Char :=
  (padded (places + 1) units).drop ((padded (places + 1) units).length - places)

theorem wholeOf_append_fractionOf : wholeOf units places ++ fractionOf units places =
    padded (places + 1) units :=
  List.take_append_drop _ _

theorem length_padded_ge : places + 1 ≤ (padded (places + 1) units).length := by
  rw [padded, padZeros, List.length_append, List.length_replicate]
  omega

theorem length_fractionOf : (fractionOf units places).length = places := by
  have long := length_padded_ge units places
  rw [fractionOf, List.length_drop]
  omega

theorem wholeOf_ne_nil : wholeOf units places ≠ [] := by
  have long := length_padded_ge units places
  refine List.ne_nil_of_length_pos ?_
  rw [wholeOf, List.length_take]
  omega

theorem ofUnits_eq : ofUnits units places =
    if places = 0 then wholeOf units places else wholeOf units places ++ '.' :: fractionOf units places := by
  have long := length_padded_ge units places
  rw [ofUnits, withPoint]
  split
  next none => rw [wholeOf, none, Nat.sub_zero, List.take_length]
  next => rfl

def trimmed : DecimalLiteral where
  sign := .absent
  whole := wholeOf units places
  fraction := Digits.ofRun? (stripEnd (· == '0') (fractionOf units places)) fun _ member =>
    isAsciiDigit_of_mem_padded (List.mem_of_mem_drop (mem_of_mem_stripEnd member))
  exponent := none
  ascii := fun _ member => isAsciiDigit_of_mem_padded (List.mem_of_mem_take member)
  filled := fun nothing => absurd nothing (wholeOf_ne_nil units places)

theorem fractionDigits_trimmed : (trimmed units places).fractionDigits =
    stripEnd (· == '0') (fractionOf units places) :=
  Digits.chars_ofRun? _

theorem text_trimmed : (trimmed units places).text = stripFractionZeros (ofUnits units places) := by
  have wholeAscii : ∀ c ∈ wholeOf units places, isAsciiDigit c = true := fun _ member =>
    isAsciiDigit_of_mem_padded (List.mem_of_mem_take member)
  have ascii : ∀ c ∈ fractionOf units places, isAsciiDigit c = true := fun _ member =>
    isAsciiDigit_of_mem_padded (List.mem_of_mem_drop member)
  have text : (trimmed units places).text = wholeOf units places ++
      if stripEnd (· == '0') (fractionOf units places) = [] then []
      else '.' :: stripEnd (· == '0') (fractionOf units places) := by
    rw [DecimalLiteral.text, DecimalLiteral.fractionText]
    unfold trimmed
    rw [Digits.fraction_ofRun?]
    exact List.append_nil _
  rw [text, ofUnits_eq]
  by_cases none : places = 0
  · have empty : fractionOf units places = [] :=
      List.eq_nil_of_length_eq_zero ((length_fractionOf units places).trans none)
    rw [if_pos none, stripFractionZeros_of_digits wholeAscii, empty]
    exact List.append_nil _
  · rw [if_neg none, stripFractionZeros_eq wholeAscii ascii]
    split
    next => exact List.append_nil _
    next => rfl

theorem trimmed_trimmed : (trimmed units places).Trimmed := by
  intro fraction member
  rw [Digits.eq_of_mem_ofRun? _ member]
  exact getLast?_stripEnd_zero _

theorem digits_trimmed : ∃ zeros, places = (trimmed units places).fractionDigits.length + zeros ∧
    units = (trimmed units places).digits * 10 ^ zeros := by
  obtain ⟨zeros, length, value⟩ :=
    decimalValue_stripEnd_zero (wholeOf units places) (fractionOf units places)
  rw [length_fractionOf] at length
  rw [wholeOf_append_fractionOf, decimalValue_padded] at value
  refine ⟨zeros, ?_, ?_⟩
  · rwa [fractionDigits_trimmed]
  · rwa [DecimalLiteral.digits, fractionDigits_trimmed]

theorem digits_trimmed_le : (trimmed units places).digits ≤ units := by
  obtain ⟨zeros, -, value⟩ := digits_trimmed units places
  conv_rhs => rw [value]
  exact Nat.le_mul_of_pos_right _ (Nat.pow_pos (by decide))

theorem trimmed_mul_ten {units : ℕ} (positive : 0 < units) (places : ℕ) :
    trimmed (units * 10) (places + 1) = trimmed units places := by
  have whole : wholeOf (units * 10) (places + 1) = wholeOf units places := by
    rw [wholeOf, wholeOf, padded_mul_ten positive, List.length_append, List.length_singleton,
      Nat.add_sub_add_right, List.take_append_of_le_length (Nat.sub_le _ _)]
  have fraction : fractionOf (units * 10) (places + 1) = fractionOf units places ++ ['0'] := by
    rw [fractionOf, fractionOf, padded_mul_ten positive, List.length_append, List.length_singleton,
      Nat.add_sub_add_right, List.drop_append_of_le_length (Nat.sub_le _ _)]
  have stripped : stripEnd (· == '0') (fractionOf (units * 10) (places + 1)) =
      stripEnd (· == '0') (fractionOf units places) := by
    rw [fraction, stripEnd, stripEnd, List.reverse_append]
    rfl
  unfold trimmed
  congr 1
  congr 1

theorem magnitude_trimmed : (trimmed units places).magnitude = units * 10 ^ (-(places : ℤ)) := by
  obtain ⟨zeros, length, value⟩ := digits_trimmed units places
  have power : (trimmed units places).power = 0 := rfl
  have exponent : (0 : ℤ) - (trimmed units places).fractionDigits.length = zeros + -(places : ℤ) := by
    omega
  conv_rhs => rw [value]
  rw [DecimalLiteral.magnitude, power, exponent, zpow_add₀ (by norm_num), zpow_natCast]
  push_cast
  ring

theorem length_wholeOf (fits : units < 10 ^ (places + 1)) : (wholeOf units places).length = 1 := by
  rw [wholeOf, List.length_take, length_padded (Nat.succ_pos places) fits]
  omega

theorem contains_point_trimmed :
    (trimmed units places).text.contains '.' = (trimmed units places).fraction.isSome := by
  have digits := point_not_mem (trimmed units places).ascii
  have text : (trimmed units places).text =
      (trimmed units places).whole ++ (trimmed units places).fractionText :=
    List.append_nil _
  rw [text, DecimalLiteral.fractionText]
  cases (trimmed units places).fraction with
  | none => exact Bool.eq_false_iff.mpr fun point => digits (by simpa using point)
  | some fraction => exact List.contains_iff_mem.mpr (List.mem_append_right _ List.mem_cons_self)

end

section
variable {x : Binary64} {d : Decimal} {places : ℕ}

theorem fixed_eq (finite : x.isFinite = true) {count : ℕ} (rounds : d.Rounds x.magnitude count)
    (last : d.exponent = -places) : fixed x places = ofUnits d.digits places := by
  rw [fixed, if_pos finite, Binary64.toPlaces_eq_digits rounds last]

theorem magnitude_fixed (last : d.exponent = -places) :
    (trimmed d.digits places).magnitude = d.value := by
  rw [magnitude_trimmed, Decimal.value, last]

theorem scientific_eq (finite : x.isFinite = true) (nonzero : x.isZero = false)
    (rounds : d.Rounds x.magnitude (places + 1)) :
    scientific x places = (ofUnits d.digits places, d.leading (places + 1)) := by
  have same := (Binary64.toSignificant_rounds nonzero (Nat.succ_pos places)).unique rounds
  rw [scientific, if_pos finite, same]

theorem magnitude_scientific (d : Decimal) (places : ℕ) (mark : Char)
    (isMark : mark = 'e' ∨ mark = 'E') :
    ((trimmed d.digits places).withExponent
      (.ofInt mark isMark (d.leading (places + 1)))).magnitude = d.value := by
  have power : -(places : ℤ) + d.leading (places + 1) = d.exponent := by
    rw [Decimal.leading]
    push_cast
    ring
  rw [DecimalLiteral.magnitude_withExponent rfl, magnitude_trimmed, ExponentPart.value_ofInt, mul_assoc,
    ← zpow_add₀ (by norm_num), power, Decimal.value]

end

end ConfigExpr.DecimalText
