import ConfigExpr.Proofs.DatePhrase.Scanning
import ConfigExpr.Proofs.Text.Numerals
import Mathlib.Algebra.Order.Field.Rat
import Mathlib.Algebra.Order.Field.Power
import Mathlib.Tactic.Ring

/-!
Decimal numbers as they are written: an optional sign, digits with an optional fraction behind them or
a fraction alone, and an optional exponent. A point has a digit behind it, and an exponent mark has a
number behind it.
-/
namespace ConfigExpr.Text

inductive WrittenSign where
  | absent
  | plus
  | minus
deriving DecidableEq

namespace WrittenSign

def text : WrittenSign → List Char
  | .absent => []
  | .plus => ['+']
  | .minus => ['-']

def isMinus : WrittenSign → Bool
  | .minus => true
  | .absent | .plus => false

end WrittenSign

theorem noSign_of_le {c : Char} (low : 48 ≤ c.toNat) : ['+', '-'].contains c = false := by
  refine Bool.eq_false_iff.mpr fun sign => ?_
  have either : c = '+' ∨ c = '-' := by simpa using sign
  obtain rfl | rfl := either
  · exact absurd low (by decide)
  · exact absurd low (by decide)

theorem noSign_of_digit {c : Char} (digit : isAsciiDigit c = true) :
    ['+', '-'].contains c = false :=
  noSign_of_le (Scan.toNat_bounds_of_digit digit).1

theorem exists_sign (text : List Char) : ∃ (sign : WrittenSign) (behind : List Char),
    text = sign.text ++ behind ∧ (sign = .absent → Scan.Stops (['+', '-'].contains ·) behind) := by
  rcases text with _ | ⟨c, rest⟩
  · exact ⟨.absent, [], rfl, fun _ => Scan.stops_nil⟩
  by_cases minus : c = '-'
  · exact ⟨.minus, rest, by rw [minus]; rfl, nofun⟩
  by_cases plus : c = '+'
  · exact ⟨.plus, rest, by rw [plus]; rfl, nofun⟩
  · exact ⟨.absent, c :: rest, rfl, fun _ => Scan.stops_cons (by simp [minus, plus])⟩

structure Digits where
  chars : List Char
  ascii : ∀ c ∈ chars, isAsciiDigit c = true
  filled : chars ≠ []

namespace Digits

def value (d : Digits) : ℕ :=
  decimalValue d.chars

def ofNat (n : ℕ) : Digits :=
  ⟨Numeral.ofNat n, fun _ => Numeral.isAsciiDigit_of_mem_ofNat, Numeral.ofNat_ne_nil n⟩

def ofRun? (chars : List Char) (ascii : ∀ c ∈ chars, isAsciiDigit c = true) : Option Digits :=
  if filled : chars = [] then none else some ⟨chars, ascii, filled⟩

section
variable {chars : List Char} (ascii : ∀ c ∈ chars, isAsciiDigit c = true)

theorem chars_ofRun? : ((ofRun? chars ascii).map Digits.chars).getD [] = chars := by
  unfold ofRun?
  split
  next nothing => exact nothing.symm
  next => rfl

theorem fraction_ofRun? : ((ofRun? chars ascii).map fun digits => '.' :: digits.chars).getD [] =
    if chars = [] then [] else '.' :: chars := by
  unfold ofRun?
  split <;> rfl

theorem eq_of_mem_ofRun? {digits : Digits} (member : digits ∈ ofRun? chars ascii) :
    digits.chars = chars := by
  unfold ofRun? at member
  split at member
  next => cases member
  next => exact congrArg Digits.chars (Option.some.inj member).symm

end

end Digits

structure ExponentPart where
  mark : Char
  isMark : mark = 'e' ∨ mark = 'E'
  sign : WrittenSign
  digits : Digits

namespace ExponentPart

def text (e : ExponentPart) : List Char :=
  e.mark :: (e.sign.text ++ e.digits.chars)

def value (e : ExponentPart) : ℤ :=
  if e.sign.isMinus then -(e.digits.value : ℤ) else e.digits.value

def ofInt (mark : Char) (isMark : mark = 'e' ∨ mark = 'E') (n : ℤ) : ExponentPart where
  mark := mark
  isMark := isMark
  sign := if n < 0 then .minus else .plus
  digits := .ofNat n.natAbs

section
variable {mark : Char} (isMark : mark = 'e' ∨ mark = 'E') (n : ℤ)

theorem text_ofInt : (ofInt mark isMark n).text =
    mark :: (if n < 0 then '-' else '+') :: Numeral.ofNat n.natAbs := by
  rw [text, ofInt]
  split <;> rfl

theorem value_ofInt : (ofInt mark isMark n).value = n := by
  have digits : (ofInt mark isMark n).digits.value = n.natAbs := Numeral.decimalValue_ofNat n.natAbs
  rw [value, digits, ofInt]
  by_cases negative : n < 0
  · rw [if_pos negative, WrittenSign.isMinus, if_pos rfl]
    omega
  · rw [if_neg negative, WrittenSign.isMinus, if_neg Bool.false_ne_true]
    omega

end

end ExponentPart

structure DecimalLiteral where
  sign : WrittenSign
  whole : List Char
  fraction : Option Digits
  exponent : Option ExponentPart
  ascii : ∀ c ∈ whole, isAsciiDigit c = true
  filled : whole = [] → fraction.isSome = true

namespace DecimalLiteral
variable (l : DecimalLiteral)

def fractionDigits : List Char :=
  (l.fraction.map Digits.chars).getD []

def fractionText : List Char :=
  (l.fraction.map fun digits => '.' :: digits.chars).getD []

def exponentText : List Char :=
  (l.exponent.map ExponentPart.text).getD []

def text : List Char :=
  l.sign.text ++ l.whole ++ l.fractionText ++ l.exponentText

/-- All digits in front of the exponent, as a whole number. -/
def digits : ℕ :=
  decimalValue (l.whole ++ l.fractionDigits)

def power : ℤ :=
  (l.exponent.map ExponentPart.value).getD 0

/-- The number without its sign. -/
def magnitude : ℚ :=
  l.digits * 10 ^ (l.power - l.fractionDigits.length)

def value : ℚ :=
  if l.sign.isMinus then -l.magnitude else l.magnitude

/-- A fraction does not end with a zero. -/
def Trimmed : Prop :=
  ∀ fraction ∈ l.fraction, fraction.chars.getLast? ≠ some '0'

def withSign (sign : WrittenSign) : DecimalLiteral :=
  { l with sign }

def withExponent (exponent : ExponentPart) : DecimalLiteral :=
  { l with exponent := some exponent }

def withPoint : DecimalLiteral where
  sign := l.sign
  whole := l.whole
  fraction := some (l.fraction.getD (.ofNat 0))
  exponent := l.exponent
  ascii := l.ascii
  filled := fun _ => rfl

variable {l}

theorem text_withSign (unsigned : l.sign = .absent) (sign : WrittenSign) :
    (l.withSign sign).text = sign.text ++ l.text := by
  have bare : l.text = l.whole ++ l.fractionText ++ l.exponentText := by
    rw [text, unsigned]
    rfl
  rw [bare, ← List.append_assoc, ← List.append_assoc]
  rfl

theorem value_withSign (sign : WrittenSign) :
    (l.withSign sign).value = if sign.isMinus then -l.magnitude else l.magnitude :=
  rfl

theorem text_withExponent (bare : l.exponent = none) (exponent : ExponentPart) :
    (l.withExponent exponent).text = l.text ++ exponent.text := by
  have short : l.text = l.sign.text ++ l.whole ++ l.fractionText := by
    rw [text, exponentText, bare]
    exact List.append_nil _
  rw [short]
  rfl

theorem magnitude_withExponent (bare : l.exponent = none) (exponent : ExponentPart) :
    (l.withExponent exponent).magnitude = l.magnitude * 10 ^ exponent.value := by
  have unscaled : l.power = 0 := by
    rw [power, bare]
    rfl
  have scaled : (l.withExponent exponent).power = exponent.value := rfl
  have digits : (l.withExponent exponent).digits = l.digits := rfl
  have fraction : (l.withExponent exponent).fractionDigits = l.fractionDigits := rfl
  rw [magnitude, magnitude, unscaled, scaled, digits, fraction, mul_assoc, ← zpow_add₀ (by norm_num)]
  congr 2
  omega

theorem text_withPoint (bare : l.exponent = none) :
    l.withPoint.text = if l.fraction.isSome then l.text else l.text ++ ['.', '0'] := by
  rw [text, text, exponentText, exponentText, fractionText, fractionText, withPoint, bare]
  cases l.fraction with
  | none => simp [Digits.ofNat, Numeral.ofNat]
  | some fraction => rfl

theorem magnitude_withPoint : l.withPoint.magnitude = l.magnitude := by
  have power : l.withPoint.power = l.power := rfl
  have digits : l.withPoint.digits = decimalValue (l.whole ++ l.withPoint.fractionDigits) := rfl
  rw [magnitude, magnitude, power, digits, DecimalLiteral.digits]
  cases lacks : l.fraction with
  | none =>
    have zero : l.withPoint.fractionDigits = ['0'] := by
      rw [fractionDigits, withPoint, lacks]
      rfl
    have nothing : l.fractionDigits = [] := by
      rw [fractionDigits, lacks]
      rfl
    have last : decimalValue ['0'] = 0 := rfl
    have shifted : (10 : ℚ) ^ l.power = 10 ^ (l.power - (1 : ℕ)) * 10 := by
      rw [← zpow_add_one₀ (by norm_num), Nat.cast_one, sub_add_cancel]
    rw [zero, nothing, List.append_nil, Numeral.decimalValue_append, last, List.length_singleton,
      List.length_nil, Nat.cast_zero, sub_zero, shifted]
    push_cast
    ring
  | some fraction =>
    have same : l.withPoint.fractionDigits = l.fractionDigits := by
      rw [fractionDigits, fractionDigits, withPoint, lacks]
      rfl
    rw [same]

theorem text_ne_nil (l : DecimalLiteral) : l.text ≠ [] := by
  intro empty
  simp only [text, List.append_eq_nil_iff] at empty
  obtain ⟨⟨⟨-, whole⟩, fraction⟩, -⟩ := empty
  obtain ⟨digits, has⟩ := Option.isSome_iff_exists.mp (l.filled whole)
  rw [fractionText, has] at fraction
  cases fraction

theorem magnitude_of_text_zero (zero : l.text = ['0']) : l.magnitude = 0 := by
  have unsigned : l.sign = .absent := by
    cases sign : l.sign with
    | absent => rfl
    | plus | minus =>
      rw [text, sign] at zero
      cases zero
  have nothing : l.digits = 0 := by
    rw [text, unsigned, WrittenSign.text, List.nil_append, List.append_assoc] at zero
    rw [digits]
    cases whole : l.whole with
    | nil =>
      obtain ⟨written, has⟩ := Option.isSome_iff_exists.mp (l.filled whole)
      rw [whole, fractionText, has] at zero
      cases zero
    | cons c more =>
      rw [whole, List.cons_append, List.cons.injEq, List.append_eq_nil_iff,
        List.append_eq_nil_iff] at zero
      obtain ⟨rfl, rfl, fraction, -⟩ := zero
      have lacks : l.fractionDigits = [] := by
        cases has : l.fraction with
        | none => rw [fractionDigits, has]; rfl
        | some written => rw [fractionText, has] at fraction; cases fraction
      rw [lacks]
      rfl
  rw [magnitude, nothing, Nat.cast_zero, zero_mul]

end DecimalLiteral

end ConfigExpr.Text
