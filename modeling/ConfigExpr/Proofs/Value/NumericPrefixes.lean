import ConfigExpr.Proofs.Number.NearestFloats
import ConfigExpr.Proofs.Text.DecimalLiterals
import ConfigExpr.Value.NumericPrefix

/-!
The number at the start of a text is the longest decimal literal that the text starts with behind its
leading blanks. Whole numbers of 64 bits without a point and an exponent are integers, and any other
literal is rounded to the nearest float.
-/
namespace ConfigExpr
open Text Scan

namespace Text
variable {l : DecimalLiteral} {text rest : List Char} {c : Char}

def Digits.append (d : Digits) (digit : isAsciiDigit c = true) : Digits where
  chars := d.chars ++ [c]
  ascii := List.forall_mem_append.mpr ⟨d.ascii, List.forall_mem_singleton.mpr digit⟩
  filled := List.append_ne_nil_of_right_ne_nil _ (List.cons_ne_nil c [])

namespace DecimalLiteral

structure LongestAt (l : DecimalLiteral) (text : List Char) : Prop where
  starts : l.text <+: text
  longest : ∀ other : DecimalLiteral, other.text <+: text → other.text.length ≤ l.text.length

theorem exists_longestAt (starts : l.text <+: text) : ∃ l, LongestAt l text := by
  by_contra none
  have longer (n : ℕ) : ∃ l : DecimalLiteral, l.text <+: text ∧ n ≤ l.text.length := by
    induction n with
    | zero => exact ⟨l, starts, Nat.zero_le _⟩
    | succ n ih =>
      obtain ⟨l, starts, long⟩ := ih
      by_contra short
      refine none ⟨l, starts, fun other otherStarts => Nat.le_of_not_lt fun more => ?_⟩
      exact short ⟨other, otherStarts, Nat.succ_le_of_lt (long.trans_lt more)⟩
  obtain ⟨l, starts, long⟩ := longer (text.length + 1)
  have := starts.length_le
  omega

theorem LongestAt.self (l : DecimalLiteral) : l.LongestAt l.text :=
  ⟨List.prefix_rfl, fun _ starts => starts.length_le⟩

theorem exists_text_append_digit (l : DecimalLiteral) (digit : isAsciiDigit c = true) :
    ∃ longer : DecimalLiteral, longer.text = l.text ++ [c] := by
  obtain ⟨sign, whole, fraction, exponent, ascii, filled⟩ := l
  cases exponent with
  | some e =>
    refine ⟨⟨sign, whole, fraction, some { e with digits := e.digits.append digit }, ascii, filled⟩, ?_⟩
    simp [text, exponentText, fractionText, ExponentPart.text, Digits.append]
  | none =>
    cases fraction with
    | some f =>
      refine ⟨⟨sign, whole, some (f.append digit), none, ascii, fun _ => rfl⟩, ?_⟩
      simp [text, exponentText, fractionText, Digits.append]
    | none =>
      refine ⟨⟨sign, whole ++ [c], none, none, List.forall_mem_append.mpr
        ⟨ascii, List.forall_mem_singleton.mpr digit⟩, fun nothing => absurd nothing (by simp)⟩, ?_⟩
      simp [text, exponentText, fractionText]

structure Ends (l : DecimalLiteral) (behind : List Char) : Prop where
  digits : Stops isAsciiDigit behind
  exponent : l.exponent = none → ∀ e : ExponentPart, ¬ e.text <+: behind
  fraction : l.exponent = none → l.fraction = none → ∀ f : Digits, ¬ '.' :: f.chars <+: behind

theorem LongestAt.ends (longest : l.LongestAt (l.text ++ rest)) : l.Ends rest := by
  -- Any literal that has more text behind the same start would be longer.
  have none {more : List Char} (some : more ≠ []) (starts : more <+: rest)
      (longer : DecimalLiteral) : longer.text ≠ l.text ++ more := by
    intro text
    have bound := longest.longest longer
      (by rw [text]; exact (List.prefix_append_right_inj l.text).mpr starts)
    rw [text, List.length_append] at bound
    have := List.length_pos_iff.mpr some
    omega
  refine ⟨fun c first => Bool.eq_false_iff.mpr fun digit => ?_, fun bare e starts => ?_,
    fun bare whole f starts => ?_⟩
  · obtain ⟨longer, text⟩ := l.exists_text_append_digit digit
    obtain ⟨behind, rfl⟩ : ∃ behind, rest = c :: behind := List.head?_eq_some_iff.mp first
    exact none (List.cons_ne_nil c []) ⟨behind, rfl⟩ longer text
  · exact none (List.cons_ne_nil _ _) starts (l.withExponent e) (text_withExponent bare e)
  · refine none (List.cons_ne_nil _ _) starts { l with fraction := some f, filled := fun _ => rfl } ?_
    simp [text, exponentText, fractionText, bare, whole]

end DecimalLiteral

end Text

namespace NumericPrefix
variable {l : DecimalLiteral} {text rest : List Char}

def Parts.of (l : DecimalLiteral) : Parts where
  negative := l.sign.isMinus
  whole := l.whole
  fraction := l.fraction.map Digits.chars
  exponent := l.exponent.map fun e => (e.sign.isMinus, e.digits.chars)

theorem takeSign_text (sign : WrittenSign)
    (bare : sign = .absent → Stops (['+', '-'].contains ·) rest) :
    takeSign (sign.text ++ rest) = (sign.isMinus, rest) := by
  cases sign with
  | plus | minus => rfl
  | absent =>
    change takeSign rest = (false, rest)
    unfold takeSign
    split
    next => exact absurd (bare rfl '-' rfl) (by decide)
    next => exact absurd (bare rfl '+' rfl) (by decide)
    next => rfl

theorem exists_sign_of_takeSign (text : List Char) :
    ∃ sign : WrittenSign, text = sign.text ++ (takeSign text).2 ∧ sign.isMinus = (takeSign text).1 := by
  unfold takeSign
  split
  next => exact ⟨.minus, rfl, rfl⟩
  next => exact ⟨.plus, rfl, rfl⟩
  next => exact ⟨.absent, rfl, rfl⟩

theorem takeFraction_text (fraction : Option Digits) (stops : Stops isAsciiDigit rest)
    (none : fraction = none → ∀ f : Digits, ¬ '.' :: f.chars <+: rest) :
    takeFraction ((fraction.map fun f => '.' :: f.chars).getD [] ++ rest) =
      (fraction.map Digits.chars, rest) := by
  cases fraction with
  | some f =>
    change takeFraction ('.' :: (f.chars ++ rest)) = (some f.chars, rest)
    rw [takeFraction, takeWhile_append f.ascii stops, dropWhile_append f.ascii stops]
    split
    next nothing => exact absurd nothing f.filled
    next => rfl
  | none =>
    change takeFraction rest = (.none, rest)
    unfold takeFraction
    split
    next behind =>
      split
      next => rfl
      next digits filled =>
        refine absurd ?_ (none rfl ⟨behind.takeWhile isAsciiDigit, fun c member =>
          List.all_eq_true.mp List.all_takeWhile c member, filled⟩)
        exact List.cons_prefix_cons.mpr ⟨rfl, List.takeWhile_prefix _⟩
    next => rfl

theorem exists_fraction_of_takeFraction (text : List Char) :
    ∃ fraction : Option Digits, (takeFraction text).1 = fraction.map Digits.chars ∧
      text = (fraction.map fun f => '.' :: f.chars).getD [] ++ (takeFraction text).2 := by
  unfold takeFraction
  split
  next behind =>
    split
    next => exact ⟨none, rfl, rfl⟩
    next digits filled =>
      refine ⟨some ⟨behind.takeWhile isAsciiDigit, fun c member =>
        List.all_eq_true.mp List.all_takeWhile c member, filled⟩, rfl, ?_⟩
      simp
  next => exact ⟨none, rfl, rfl⟩

theorem takeExponent_text (exponent : Option ExponentPart) (stops : Stops isAsciiDigit rest)
    (none : exponent = none → ∀ e : ExponentPart, ¬ e.text <+: rest) :
    (takeExponent ((exponent.map ExponentPart.text).getD [] ++ rest)).1 =
      exponent.map fun e => (e.sign.isMinus, e.digits.chars) := by
  cases exponent with
  | some e =>
    have sign : takeSign (e.sign.text ++ (e.digits.chars ++ rest)) =
        (e.sign.isMinus, e.digits.chars ++ rest) :=
      takeSign_text e.sign fun _ => stops_append e.digits.filled fun c member =>
        noSign_of_digit (e.digits.ascii c member)
    have mark : (e.mark = 'e' || e.mark = 'E') = true := by
      simpa using e.isMark
    change (takeExponent (e.mark :: (e.sign.text ++ e.digits.chars ++ rest))).1 =
      some (e.sign.isMinus, e.digits.chars)
    rw [takeExponent, if_pos mark, List.append_assoc, sign]
    dsimp only
    rw [takeWhile_append e.digits.ascii stops]
    split
    next nothing => exact absurd nothing e.digits.filled
    next => rfl
  | none =>
    change (takeExponent rest).1 = .none
    unfold takeExponent
    split
    next mark behind =>
      split
      next isMark =>
        obtain ⟨sign, text, minus⟩ := exists_sign_of_takeSign behind
        dsimp only
        split
        next => rfl
        next digits filled =>
          refine absurd ?_ (none rfl ⟨mark, by simpa using isMark, sign,
            (takeSign behind).2.takeWhile isAsciiDigit, fun c member =>
              List.all_eq_true.mp List.all_takeWhile c member, filled⟩)
          have taken : (takeSign behind).2.takeWhile isAsciiDigit <+: (takeSign behind).2 :=
            List.takeWhile_prefix isAsciiDigit
          have more := (List.prefix_append_right_inj sign.text).mpr taken
          rw [← text] at more
          exact List.cons_prefix_cons.mpr ⟨rfl, more⟩
      next => rfl
    next => rfl

theorem exponentText_stops {p : Char → Bool} (marks : ['e', 'E'].any p = false)
    (stops : l.exponent = none → Stops p rest) : Stops p (l.exponentText ++ rest) := by
  rw [DecimalLiteral.exponentText]
  cases shown : l.exponent with
  | none => exact stops shown
  | some e =>
    refine stops_cons (Bool.eq_false_iff.mpr fun holds => ?_)
    have either : e.mark ∈ ['e', 'E'] := by simpa using e.isMark
    exact List.any_eq_false.mp marks _ either holds

theorem parts?_text (ends : l.Ends rest) : parts? (l.text ++ rest) = some (Parts.of l) := by
  have behindFraction : Stops isAsciiDigit (l.exponentText ++ rest) :=
    exponentText_stops (by decide) fun _ => ends.digits
  have behindWhole : Stops isAsciiDigit (l.fractionText ++ (l.exponentText ++ rest)) := by
    rw [DecimalLiteral.fractionText]
    cases l.fraction with
    | none => exact behindFraction
    | some f => exact stops_cons (by decide)
  have behindSign : Stops (['+', '-'].contains ·)
      (l.whole ++ (l.fractionText ++ (l.exponentText ++ rest))) := by
    by_cases whole : l.whole = []
    · obtain ⟨f, shown⟩ := Option.isSome_iff_exists.mp (l.filled whole)
      rw [whole, DecimalLiteral.fractionText, shown]
      exact stops_cons (by decide)
    · exact stops_append whole fun c member => noSign_of_digit (l.ascii c member)
  have noFraction : l.fraction = none → ∀ f : Digits, ¬ '.' :: f.chars <+: l.exponentText ++ rest := by
    intro none f starts
    cases shown : l.exponent with
    | none =>
      rw [DecimalLiteral.exponentText, shown] at starts
      exact ends.fraction shown none f starts
    | some e =>
      rw [DecimalLiteral.exponentText, shown] at starts
      have mark : '.' = e.mark := (List.cons_prefix_cons.mp starts).1
      have isMark := e.isMark
      rw [← mark] at isMark
      exact absurd isMark (by decide)
  have text : l.text ++ rest =
      l.sign.text ++ (l.whole ++ (l.fractionText ++ (l.exponentText ++ rest))) := by
    simp only [DecimalLiteral.text, List.append_assoc]
  have fraction : takeFraction (l.fractionText ++ (l.exponentText ++ rest)) =
      (l.fraction.map Digits.chars, l.exponentText ++ rest) :=
    takeFraction_text l.fraction behindFraction noFraction
  have exponent : (takeExponent (l.exponentText ++ rest)).1 =
      l.exponent.map fun e => (e.sign.isMinus, e.digits.chars) :=
    takeExponent_text l.exponent ends.digits ends.exponent
  have some : ¬ (l.whole.isEmpty && (l.fraction.map Digits.chars).isNone) = true := by
    rw [Bool.and_eq_true, List.isEmpty_iff, Option.isNone_map]
    rintro ⟨whole, none⟩
    have fraction := l.filled whole
    rw [Option.isNone_iff_eq_none.mp none] at fraction
    cases fraction
  rw [parts?, text, takeSign_text l.sign fun _ => behindSign]
  dsimp only
  rw [takeWhile_append l.ascii behindWhole, dropWhile_append l.ascii behindWhole, fraction]
  dsimp only
  rw [if_neg some, exponent]
  rfl

theorem exists_literal_of_parts? {p : Parts} (taken : parts? text = some p) :
    ∃ l : DecimalLiteral, l.text <+: text := by
  obtain ⟨sign, signed, -⟩ := exists_sign_of_takeSign text
  rw [parts?] at taken
  dsimp only at taken
  generalize (takeSign text).2 = unsigned at *
  obtain ⟨fraction, same, behind⟩ :=
    exists_fraction_of_takeFraction (unsigned.dropWhile isAsciiDigit)
  split at taken
  next => cases taken
  next some =>
    rw [same, Option.isNone_map, Bool.and_eq_true, List.isEmpty_iff, Option.isNone_iff_eq_none] at some
    have filled (whole : unsigned.takeWhile isAsciiDigit = []) : fraction.isSome = true :=
      Option.isSome_iff_ne_none.mpr fun none => some ⟨whole, none⟩
    have whole : unsigned.takeWhile isAsciiDigit ++ unsigned.dropWhile isAsciiDigit = unsigned :=
      List.takeWhile_append_dropWhile
    refine ⟨⟨sign, unsigned.takeWhile isAsciiDigit, fraction, none, fun c member =>
      List.all_eq_true.mp List.all_takeWhile c member, filled⟩,
      (takeFraction (unsigned.dropWhile isAsciiDigit)).2, ?_⟩
    rw [DecimalLiteral.text, DecimalLiteral.fractionText, DecimalLiteral.exponentText, Option.map_none,
      Option.getD_none, List.append_nil, List.append_assoc, ← behind, List.append_assoc, whole, signed]

theorem parts?_eq_none_iff : parts? text = none ↔ ¬ ∃ l : DecimalLiteral, l.text <+: text := by
  constructor
  · rintro none ⟨l, starts⟩
    obtain ⟨l, longest⟩ := DecimalLiteral.exists_longestAt starts
    obtain ⟨rest, rfl⟩ := longest.starts
    rw [parts?_text longest.ends] at none
    cases none
  · intro nowhere
    by_contra some
    obtain ⟨p, taken⟩ := Option.ne_none_iff_exists'.mp some
    exact nowhere (exists_literal_of_parts? taken)

theorem exponentValue_eq_foldl (digits : List Char) : exponentValue digits =
    (digits.map fun c => c.toNat - 48).foldl
      (fun value digit => if value < exponentBound then value * 10 + digit else value) 0 := by
  rw [exponentValue, List.foldl_map]

theorem decimalValue_eq_ofDigits (digits : List Char) :
    decimalValue digits = ofDigits 10 (digits.map fun c => c.toNat - 48) := by
  rw [decimalValue, ofHalves_eq_ofDigits]

theorem foldl_counted (digits : List ℕ) (start : ℕ) :
    let counted := digits.foldl
      (fun value digit => if value < exponentBound then value * 10 + digit else value) start
    let whole := start * 10 ^ digits.length + ofDigits 10 digits
    (whole < 10 * exponentBound → counted = whole) ∧ (exponentBound ≤ whole → exponentBound ≤ counted) := by
  induction digits generalizing start with
  | nil => simp [ofDigits]
  | cons digit digits ih =>
    have next : start * 10 ^ (digits.length + 1) + ofDigits 10 (digit :: digits) =
        (start * 10 + digit) * 10 ^ digits.length + ofDigits 10 digits := by
      rw [ofDigits, List.foldl_cons, foldl_digits]
      ring
    have power : 1 ≤ 10 ^ digits.length := Nat.one_le_pow _ _ (by decide)
    rw [List.foldl_cons, List.length_cons, next]
    split
    next => exact ih _
    next reached =>
      have start_le : start ≤ start * 10 ^ digits.length := Nat.le_mul_of_pos_right start power
      have more : start * 10 + digit ≤ (start * 10 + digit) * 10 ^ digits.length :=
        Nat.le_mul_of_pos_right _ power
      exact ⟨fun small => by omega, fun _ => (ih start).2 (by omega)⟩

theorem exponentValue_eq {digits : List Char} (small : decimalValue digits < 10 * exponentBound) :
    exponentValue digits = decimalValue digits := by
  have counted := (foldl_counted (digits.map fun c => c.toNat - 48) 0).1
  rw [Nat.zero_mul, Nat.zero_add, ← decimalValue_eq_ofDigits, ← exponentValue_eq_foldl] at counted
  exact counted small

theorem exponentBound_le_exponentValue {digits : List Char}
    (large : exponentBound ≤ decimalValue digits) : exponentBound ≤ exponentValue digits := by
  have counted := (foldl_counted (digits.map fun c => c.toNat - 48) 0).2
  rw [Nat.zero_mul, Nat.zero_add, ← decimalValue_eq_ofDigits, ← exponentValue_eq_foldl] at counted
  exact counted large

/-- The power of ten for which an exponent counts. -/
def countedPower (l : DecimalLiteral) : ℤ :=
  (l.exponent.map fun e =>
    if e.sign.isMinus then -(exponentValue e.digits.chars : ℤ) else exponentValue e.digits.chars).getD 0

/-- A literal without its sign, with the part of the exponent that counts. -/
def countedMagnitude (l : DecimalLiteral) : ℚ :=
  l.digits * 10 ^ (countedPower l - l.fractionDigits.length)

theorem toFloat_rounds (l : DecimalLiteral) : (Parts.of l).toFloat.Rounds (countedMagnitude l) := by
  have scale : (Parts.of l).scale = countedPower l - l.fractionDigits.length := by
    rw [Parts.scale, countedPower, DecimalLiteral.fractionDigits, Parts.of]
    cases l.exponent with
    | none | some e => rfl
  rw [Parts.toFloat, scale]
  exact Binary64.ofDecimal_rounds _ _ _

theorem toFloat_isNegative (l : DecimalLiteral) : (Parts.of l).toFloat.isNegative = l.sign.isMinus :=
  Binary64.ofDecimal_isNegative _ _ _

/-- Exponents that are counted whole, or too few digits for any larger exponent to matter. -/
def Countable (l : DecimalLiteral) : Prop :=
  (∀ e ∈ l.exponent, e.digits.value < 10 * exponentBound) ∨
    l.whole.length + l.fractionDigits.length ≤ 65000

theorem digits_lt (l : DecimalLiteral) :
    l.digits < 10 ^ (l.whole.length + l.fractionDigits.length) := by
  have ascii : ∀ c ∈ l.whole ++ l.fractionDigits, isAsciiDigit c = true := by
    refine List.forall_mem_append.mpr ⟨l.ascii, ?_⟩
    rw [DecimalLiteral.fractionDigits]
    cases l.fraction with
    | none => exact fun _ member => absurd member List.not_mem_nil
    | some f => exact f.ascii
  rw [← List.length_append]
  exact Numeral.decimalValue_lt ascii

section
variable {power : ℤ} (few : l.whole.length + l.fractionDigits.length ≤ 65000)
include few

theorem scaled_small (low : power ≤ -exponentBound) :
    (l.digits : ℚ) * 10 ^ (power - l.fractionDigits.length) < 2 ^ (-1075 : ℤ) := by
  rw [exponentBound] at low
  have unit : (0 : ℚ) < 10 ^ (power - l.fractionDigits.length) := zpow_pos (by norm_num) _
  have short : (l.digits : ℚ) < 10 ^ ((l.whole.length + l.fractionDigits.length : ℕ) : ℤ) := by
    rw [zpow_natCast]
    exact_mod_cast digits_lt l
  calc (l.digits : ℚ) * 10 ^ (power - l.fractionDigits.length)
      < 10 ^ ((l.whole.length + l.fractionDigits.length : ℕ) : ℤ) *
          10 ^ (power - l.fractionDigits.length) := mul_lt_mul_of_pos_right short unit
    _ = 10 ^ (((l.whole.length + l.fractionDigits.length : ℕ) : ℤ) +
          (power - l.fractionDigits.length)) := (zpow_add₀ (by norm_num) _ _).symm
    _ ≤ 2 ^ (-1075 : ℤ) := Binary64.ten_zpow_le_underflow (by omega)

theorem scaled_large (some : 0 < l.digits) (high : exponentBound ≤ power) :
    Binary64.overflowThreshold ≤ (l.digits : ℚ) * 10 ^ (power - l.fractionDigits.length) := by
  rw [exponentBound] at high
  have unit : (0 : ℚ) < 10 ^ (power - l.fractionDigits.length) := zpow_pos (by norm_num) _
  have one : (1 : ℚ) ≤ l.digits := by exact_mod_cast some
  exact (Binary64.overflowThreshold_le_ten_zpow (by omega)).trans
    (le_mul_of_one_le_left unit.le one)

end

theorem toFloat_rounds_magnitude (countable : Countable l) :
    (Parts.of l).toFloat.Rounds l.magnitude := by
  have rounds := toFloat_rounds l
  have whole (same : countedPower l = l.power) : (Parts.of l).toFloat.Rounds l.magnitude := by
    rwa [countedMagnitude, same] at rounds
  cases shown : l.exponent with
  | none => exact whole (by rw [countedPower, DecimalLiteral.power, shown]; rfl)
  | some e =>
    have counted : countedPower l = if e.sign.isMinus then -(exponentValue e.digits.chars : ℤ)
        else exponentValue e.digits.chars := by
      rw [countedPower, shown]
      rfl
    have power : l.power = if e.sign.isMinus then -(e.digits.value : ℤ) else e.digits.value := by
      rw [DecimalLiteral.power, shown]
      rfl
    by_cases small : e.digits.value < 10 * exponentBound
    · exact whole (by rw [counted, power, exponentValue_eq small]; rfl)
    · have few := countable.resolve_left fun each => small (each e shown)
      have enough : exponentBound ≤ e.digits.value := by omega
      have countedEnough := exponentBound_le_exponentValue enough
      rcases Nat.eq_zero_or_pos l.digits with none | some
      · rw [countedMagnitude, none, Nat.cast_zero, zero_mul] at rounds
        rwa [DecimalLiteral.magnitude, none, Nat.cast_zero, zero_mul]
      · rw [countedMagnitude, counted] at rounds
        rw [DecimalLiteral.magnitude, power]
        generalize e.sign.isMinus = minus at rounds ⊢
        cases minus with
        | true =>
          have nonneg (n : ℤ) : 0 ≤ (l.digits : ℚ) * 10 ^ n :=
            mul_nonneg (Nat.cast_nonneg _) (zpow_nonneg (by norm_num) _)
          exact rounds.of_small (nonneg _) (scaled_small few (by simpa using countedEnough)) (nonneg _)
            (scaled_small few (by simpa using enough)).le
        | false =>
          exact rounds.of_large (scaled_large few some (by simpa using countedEnough))
            (scaled_large few some (by simpa using enough))

theorem parts?_of_longestAt (longest : l.LongestAt text) : parts? text = some (Parts.of l) := by
  obtain ⟨rest, rfl⟩ := longest.starts
  exact parts?_text longest.ends

theorem stripStart_text (l : DecimalLiteral) : stripStart isBlank l.text = l.text := by
  have unsigned : Stops isBlank (l.whole ++ (l.fractionText ++ l.exponentText)) := by
    by_cases whole : l.whole = []
    · obtain ⟨f, shown⟩ := Option.isSome_iff_exists.mp (l.filled whole)
      rw [whole, DecimalLiteral.fractionText, shown]
      exact stops_cons (by decide)
    · exact stops_append whole fun c member => isBlank_of_digit (l.ascii c member)
  rw [stripStart, DecimalLiteral.text, List.append_assoc, List.append_assoc]
  cases l.sign with
  | absent => exact dropWhile_stops unsigned
  | plus | minus => exact dropWhile_stops (stops_cons (by decide))

theorem value_eq_signed (fraction : l.fraction = none) (exponent : l.exponent = none) :
    l.value = (Parts.of l).signed := by
  have power : l.power = 0 := by
    rw [DecimalLiteral.power, exponent]
    rfl
  have none : l.fractionDigits = [] := by
    rw [DecimalLiteral.fractionDigits, fraction]
    rfl
  have signed : (Parts.of l).signed =
      if l.sign.isMinus then -(decimalValue l.whole : ℤ) else decimalValue l.whole := rfl
  rw [DecimalLiteral.value, DecimalLiteral.magnitude, DecimalLiteral.digits, power, none, signed]
  split <;> simp

theorem value_eq_integer_iff {n : Int64} : (Parts.of l).value = .integer n ↔
    l.fraction = none ∧ l.exponent = none ∧ l.value = n.toInt := by
  have fraction : (Parts.of l).fraction.isNone = l.fraction.isNone := Option.isNone_map
  have exponent : (Parts.of l).exponent.isNone = l.exponent.isNone := Option.isNone_map
  rw [Parts.value, fraction, exponent]
  constructor
  · intro same
    split at same
    next fits =>
      simp only [Bool.and_eq_true, Option.isNone_iff_eq_none, decide_eq_true_eq] at fits
      obtain ⟨⟨⟨fraction, exponent⟩, low⟩, high⟩ := fits
      have wide : (Int64.ofInt (Parts.of l).signed).toInt = (Parts.of l).signed :=
        Int64.toInt_ofInt_of_le (by omega) (by omega)
      rw [← Value.integer.inj same, wide]
      exact ⟨fraction, exponent, value_eq_signed fraction exponent⟩
    next => cases same
  · rintro ⟨fraction, exponent, same⟩
    rw [value_eq_signed fraction exponent] at same
    have signed : (Parts.of l).signed = n.toInt := by exact_mod_cast same
    have low := n.le_toInt
    have high := n.toInt_lt
    rw [if_pos, signed, Int64.ofInt_toInt]
    simp only [fraction, exponent, signed, Option.isNone_none, Bool.true_and, Bool.and_eq_true,
      decide_eq_true_eq]
    exact ⟨by omega, by omega⟩

theorem value_eq_float_or_integer (p : Parts) :
    (∃ n, p.value = .integer n) ∨ p.value = .float p.toFloat := by
  rw [Parts.value]
  split
  next => exact .inl ⟨_, rfl⟩
  next => exact .inr rfl

theorem parse?_of_longestAt {s : String} (longest : l.LongestAt (stripStart isBlank s.toList)) :
    parse? s = some (Parts.of l).value := by
  rw [parse?, parts?_of_longestAt longest]
  rfl

end NumericPrefix

/-- The number at the start of a text is told by the longest decimal literal behind the leading blanks,
and there is none without such a literal. A literal without fraction and exponent whose value has 64
bits is that integer, and any other is the float of its sign that its magnitude is rounded to. The
digits of an exponent count up to the one that takes it to 65536; this matters to an exponent from
655360 on behind more than 65000 digits. -/
theorem NumericPrefix.numbers_follow_the_grammar (s : String) :
    (parse? s = none ↔ ¬ ∃ l : DecimalLiteral, l.text <+: stripStart isBlank s.toList) ∧
    ((∃ l : DecimalLiteral, l.text <+: stripStart isBlank s.toList) →
      ∃ l : DecimalLiteral, l.LongestAt (stripStart isBlank s.toList)) ∧
    ∀ l : DecimalLiteral, l.LongestAt (stripStart isBlank s.toList) →
      parse? s = parse? (String.ofList l.text) ∧
      (∀ n, parse? s = some (.integer n) ↔
        l.fraction = none ∧ l.exponent = none ∧ l.value = n.toInt) ∧
      ((¬ ∃ n : Int64, l.fraction = none ∧ l.exponent = none ∧ l.value = n.toInt) →
        ∃ x, parse? s = some (.float x) ∧ x.isNegative = l.sign.isMinus ∧
          x.Rounds (countedMagnitude l) ∧ (Countable l → x.Rounds l.magnitude)) := by
  refine ⟨?_, fun ⟨_, starts⟩ => DecimalLiteral.exists_longestAt starts, fun l longest => ?_⟩
  · rw [parse?, Option.map_eq_none_iff, parts?_eq_none_iff]
  · have value := parse?_of_longestAt longest
    have alone : l.LongestAt (stripStart isBlank (String.ofList l.text).toList) := by
      rw [String.toList_ofList, stripStart_text]
      exact .self l
    refine ⟨value.trans (parse?_of_longestAt alone).symm, fun n => ?_, fun other => ?_⟩
    · rw [value, Option.some_inj, value_eq_integer_iff]
    · rcases value_eq_float_or_integer (Parts.of l) with ⟨n, integer⟩ | float
      · exact absurd ⟨n, value_eq_integer_iff.mp integer⟩ other
      · exact ⟨_, value.trans (congrArg some float), toFloat_isNegative l, toFloat_rounds l,
          toFloat_rounds_magnitude⟩

namespace NumericPrefix

theorem numbers_follow_the_grammar_scaled :
    let l : DecimalLiteral := ⟨.minus, ['1', '2'],
      some ⟨['5', '0'], List.all_eq_true.mp rfl, List.cons_ne_nil _ _⟩,
      some ⟨'e', .inl rfl, .absent, ⟨['1'], List.all_eq_true.mp rfl, List.cons_ne_nil _ _⟩⟩,
      List.all_eq_true.mp rfl, fun _ => rfl⟩
    l.LongestAt (stripStart isBlank "-12.50e1".toList) ∧
      ∃ x, parse? "-12.50e1" = some (.float x) ∧ x.isNegative = true ∧ x.Rounds 125 := by
  intro l
  have longest : l.LongestAt (stripStart isBlank "-12.50e1".toList) := .self l
  have magnitude : l.magnitude = 125 := by
    have digits : l.digits = 1250 := by decide
    have power : l.power - l.fractionDigits.length = -1 := by decide
    rw [DecimalLiteral.magnitude, digits, power]
    norm_num
  have other : ¬ ∃ n : Int64, l.fraction = none ∧ l.exponent = none ∧ l.value = n.toInt := by
    rintro ⟨-, whole, -⟩
    cases whole
  obtain ⟨-, -, each⟩ := numbers_follow_the_grammar "-12.50e1"
  obtain ⟨x, float, negative, -, rounds⟩ := (each l longest).2.2 other
  rw [magnitude] at rounds
  exact ⟨longest, x, float, negative, rounds (.inr (by decide))⟩

/-- A one and so many zeros, times a power of ten below them. -/
def farLiteral (zeros : ℕ) (exponent : Digits) : DecimalLiteral where
  sign := .absent
  whole := '1' :: List.replicate zeros '0'
  fraction := none
  exponent := some ⟨'e', .inl rfl, .minus, exponent⟩
  ascii := List.forall_mem_cons.mpr ⟨by decide, fun c zero => by
    rw [List.eq_of_mem_replicate zero]
    decide⟩
  filled := fun nothing => nomatch nothing

theorem digits_farLiteral (zeros : ℕ) (exponent : Digits) :
    (farLiteral zeros exponent).digits = 10 ^ zeros := by
  have none : (farLiteral zeros exponent).fractionDigits = [] := rfl
  have whole : (farLiteral zeros exponent).whole = ['1'] ++ List.replicate zeros '0' := rfl
  have nothing := Numeral.decimalValue_replicate_zero zeros
  have one : decimalValue ['1'] = 1 := rfl
  rw [DecimalLiteral.digits, none, List.append_nil, whole, Numeral.decimalValue_append, nothing, one,
    List.length_replicate, Nat.one_mul, Nat.add_zero]

theorem text_farLiteral (zeros : ℕ) (exponent : Digits) : (farLiteral zeros exponent).text =
    '1' :: List.replicate zeros '0' ++ 'e' :: '-' :: exponent.chars := by
  rw [DecimalLiteral.text]
  exact congrArg (· ++ _) (List.append_nil _)

theorem magnitude_farLiteral (zeros : ℕ) (exponent : Digits) :
    (farLiteral zeros exponent).magnitude = 10 ^ (zeros - exponent.value : ℤ) := by
  have power : (farLiteral zeros exponent).power - (farLiteral zeros exponent).fractionDigits.length =
      -(exponent.value : ℤ) := sub_zero _
  rw [DecimalLiteral.magnitude, power, digits_farLiteral, Nat.cast_pow, Nat.cast_ofNat, sub_eq_add_neg,
    zpow_add₀ (by norm_num), zpow_natCast]

theorem countedMagnitude_farLiteral (zeros : ℕ) (exponent : Digits) :
    countedMagnitude (farLiteral zeros exponent) = 10 ^ (zeros - exponentValue exponent.chars : ℤ) := by
  have power : countedPower (farLiteral zeros exponent) -
      (farLiteral zeros exponent).fractionDigits.length = -(exponentValue exponent.chars : ℤ) :=
    sub_zero _
  rw [countedMagnitude, power, digits_farLiteral, Nat.cast_pow, Nat.cast_ofNat, sub_eq_add_neg,
    zpow_add₀ (by norm_num), zpow_natCast]

/-- The last digit of this exponent does not count, so the number is taken for one. -/
theorem long_exponent_counts_in_part :
    let exponent : Digits := ⟨"655360".toList, List.all_eq_true.mp rfl, List.cons_ne_nil _ _⟩
    let l := farLiteral 65536 exponent
    l.text = '1' :: List.replicate 65536 '0' ++ "e-655360".toList ∧ l.magnitude = 10 ^ (-589824 : ℤ) ∧
      l.LongestAt (stripStart isBlank (String.ofList l.text).toList) ∧ ∃ x,
        parse? (String.ofList l.text) = some (.float x) ∧ x.Rounds 1 ∧ ¬ x.Rounds l.magnitude := by
  intro exponent l
  have value : exponent.value = 655360 := by decide
  have counts : exponentValue exponent.chars = 65536 := by decide
  have magnitude : l.magnitude = 10 ^ (-589824 : ℤ) := by
    rw [magnitude_farLiteral, value]
    norm_num
  have counted : countedMagnitude l = 1 := by
    rw [countedMagnitude_farLiteral, counts, sub_self, zpow_zero]
  have longest : l.LongestAt (stripStart isBlank (String.ofList l.text).toList) := by
    rw [String.toList_ofList, stripStart_text]
    exact .self l
  have float : (Parts.of l).value = .float (Parts.of l).toFloat :=
    (value_eq_float_or_integer _).resolve_left fun ⟨n, integer⟩ =>
      nomatch (value_eq_integer_iff.mp integer).2.1
  have rounds := toFloat_rounds l
  rw [counted] at rounds
  refine ⟨text_farLiteral 65536 exponent, magnitude, longest, _,
    (parse?_of_longestAt longest).trans (congrArg some float), rounds, fun exact => ?_⟩
  rw [magnitude] at exact
  have none := exact.magnitude_eq_zero (zpow_nonneg (by norm_num) _)
    ((zpow_lt_zpow_right₀ (by norm_num) (by norm_num)).trans_le
      (Binary64.ten_zpow_le_underflow (n := -589823) (by norm_num)))
  let one : Binary64 := ⟨0x3FF0000000000000⟩
  have isOne : one.magnitude = 1 := by
    have top : one.numerator = 2 ^ 52 := by decide
    have bottom : one.denominator = 2 ^ 52 := by decide
    rw [Binary64.magnitude, top, bottom]
    norm_num
  have small : (1 : ℚ) < Binary64.overflowThreshold :=
    (one_lt_zpow₀ (by norm_num) (by norm_num)).trans_le Binary64.two_zpow_le_overflowThreshold
  have near := rounds.nearest small one (by decide)
  rw [none, isOne] at near
  norm_num at near

end NumericPrefix

end ConfigExpr
