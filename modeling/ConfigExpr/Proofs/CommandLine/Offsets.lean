import ConfigExpr.CommandLine.Offset
import ConfigExpr.Proofs.Text.SignedNumerals
import Mathlib.Data.List.TakeWhile

/-!
Offsets as they are given on the command line. Hours and minutes with one sign in front stand for
their magnitude with that sign. The hours and the minutes are read as numerals that may have a sign
of their own, so an offset is also taken if it has a second sign; every offset that is taken has one
of these forms.
-/
namespace ConfigExpr.CommandLine
open Text Scan

theorem within32?_eq_some {m n : ℤ} :
    within32? m = some n ↔ m = n ∧ -2 ^ 31 ≤ n ∧ n < 2 ^ 31 := by
  simp only [within32?, Bool.and_eq_true, decide_eq_true_eq, Option.ite_none_right_eq_some,
    Option.some.injEq]
  constructor
  · rintro ⟨range, rfl⟩
    exact ⟨rfl, range⟩
  · rintro ⟨rfl, range⟩
    exact ⟨range, rfl⟩

structure OffsetFits (hours minutes : ℤ) : Prop where
  hoursFit : -2 ^ 31 ≤ hours * 3600 ∧ hours * 3600 < 2 ^ 31
  minutesFit : -2 ^ 31 ≤ minutes * 60 ∧ minutes * 60 < 2 ^ 31
  below : (hours * 3600 + minutes * 60).natAbs < 86400

def signFactor (sign : WrittenSign) : ℤ :=
  if sign.isMinus then -1 else 1

theorem signFactor_eq (sign : WrittenSign) : signFactor sign = 1 ∨ signFactor sign = -1 := by
  cases sign <;> simp [signFactor, WrittenSign.isMinus]

theorem offsetSeconds?_eq_some {sign : WrittenSign} {hours minutes seconds : ℤ} :
    offsetSeconds? (signFactor sign) hours minutes = some seconds ↔
      OffsetFits hours minutes ∧ (hours * 3600 + minutes * 60) * signFactor sign = seconds := by
  have factor := signFactor_eq sign
  simp only [offsetSeconds?, Option.bind_eq_bind, Option.bind_eq_some_iff, within32?_eq_some,
    Option.ite_none_right_eq_some, Option.some.injEq]
  constructor
  · rintro ⟨_, ⟨rfl, hoursFit⟩, _, ⟨rfl, minutesFit⟩, _, ⟨rfl, -⟩, _, ⟨rfl, -⟩, below, rfl⟩
    refine ⟨⟨hoursFit, minutesFit, ?_⟩, rfl⟩
    rcases factor with one | one <;> rw [one] at below <;> omega
  · rintro ⟨⟨hoursFit, minutesFit, below⟩, rfl⟩
    refine ⟨_, ⟨rfl, hoursFit⟩, _, ⟨rfl, minutesFit⟩, _, ⟨rfl, ?_⟩, _, ⟨rfl, ?_⟩, ?_, rfl⟩
    · omega
    · rcases factor with one | one <;> rw [one] <;> omega
    · rcases factor with one | one <;> rw [one] <;> omega

theorem splitAtColon_append {hours : List Char} (noColon : ':' ∉ hours) (minutes : List Char) :
    splitAtColon (hours ++ ':' :: minutes) = (hours, minutes) := by
  have other : ∀ c ∈ hours, (c != ':') = true := fun c member =>
    bne_iff_ne.mpr fun same => noColon (same ▸ member)
  rw [splitAtColon, List.dropWhile_append_of_pos other, List.takeWhile_append_of_pos other]
  simp

theorem splitAtColon_of_not_mem {hours : List Char} (noColon : ':' ∉ hours) :
    splitAtColon hours = (hours, ['0']) := by
  have other : ∀ c ∈ hours, (c != ':') = true := fun c member =>
    bne_iff_ne.mpr fun same => noColon (same ▸ member)
  have nothing : hours.dropWhile (· != ':') = [] := List.dropWhile_eq_nil_iff.mpr other
  rw [splitAtColon, nothing]

theorem exists_parts (text : List Char) :
    (':' ∉ text) ∨ ∃ hours minutes, ':' ∉ hours ∧ text = hours ++ ':' :: minutes := by
  by_cases colon : ':' ∈ text
  · obtain ⟨hours, minutes, whole, noColon⟩ := List.eq_append_cons_of_mem colon
    exact .inr ⟨hours, minutes, noColon, whole⟩
  · exact .inl colon

theorem parseOffset_of_stops {text : List Char} (unsigned : Stops (['+', '-'].contains ·) text) :
    parseOffset text = parseOffset ('+' :: text) := by
  have noPlus (behind : List Char) (same : text = '+' :: behind) : False := by
    subst same
    exact absurd (unsigned '+' rfl) (by decide)
  have noMinus (behind : List Char) (same : text = '-' :: behind) : False := by
    subst same
    exact absurd (unsigned '-' rfl) (by decide)
  rw [parseOffset.eq_3 text noPlus noMinus]
  rfl

theorem parseOffset_eq_ok_iff {sign : WrittenSign} {rest : List Char} {seconds : ℤ}
    (first : sign = .absent → Stops (['+', '-'].contains ·) rest) :
    parseOffset (sign.text ++ rest) = .ok seconds ↔ ∃ hours minutes,
      Numeral.read32 (splitAtColon rest).1 = .ok hours ∧
      Numeral.read32 (splitAtColon rest).2 = .ok minutes ∧
      offsetSeconds? (signFactor sign) hours minutes = some seconds := by
  have signed {c : Char} {factor : ℤ} (means : c = '+' ∧ factor = 1 ∨ c = '-' ∧ factor = -1) :
      parseOffset (c :: rest) = .ok seconds ↔ ∃ hours minutes,
        Numeral.read32 (splitAtColon rest).1 = .ok hours ∧
        Numeral.read32 (splitAtColon rest).2 = .ok minutes ∧
        offsetSeconds? factor hours minutes = some seconds := by
    rcases means with ⟨rfl, rfl⟩ | ⟨rfl, rfl⟩
    all_goals
      rw [parseOffset]
      cases splitAtColon rest with
      | mk before behind =>
        dsimp only
        cases Numeral.read32 before with
        | error fault => simp
        | ok hours =>
          cases Numeral.read32 behind with
          | error fault => simp
          | ok minutes =>
            simp only [Except.ok.injEq, exists_eq_left', exists_and_left]
            split <;> simp_all
  cases sign with
  | plus => exact signed (.inl ⟨rfl, rfl⟩)
  | minus => exact signed (.inr ⟨rfl, rfl⟩)
  | absent =>
    rw [WrittenSign.text, List.nil_append, parseOffset_of_stops (first rfl)]
    exact signed (.inl ⟨rfl, rfl⟩)

theorem noSign_iff {c : Char} : ['+', '-'].contains c = false ↔ c ≠ '+' ∧ c ≠ '-' := by
  simp

theorem mem_tail_append {before behind : List Char} {c : Char} (filled : before ≠ [])
    (member : c ∈ behind) : c ∈ (before ++ behind).tail := by
  rw [List.tail_append_of_ne_nil filled]
  exact List.mem_append_right _ member

theorem exists_sign_of_ne_absent {sign : WrittenSign} (present : sign ≠ .absent) :
    ∃ c, sign.text = [c] ∧ ['+', '-'].contains c = true := by
  cases sign with
  | absent => exact absurd rfl present
  | plus => exact ⟨'+', rfl, rfl⟩
  | minus => exact ⟨'-', rfl, rfl⟩

theorem sign_eq_absent {w : SignedDigits}
    (unsigned : ∀ c ∈ w.text, ['+', '-'].contains c = false) : w.sign = .absent := by
  by_contra present
  obtain ⟨c, text, sign⟩ := exists_sign_of_ne_absent present
  have member : c ∈ w.text := List.mem_append_left _ (text ▸ List.mem_singleton_self c)
  exact Bool.false_ne_true ((unsigned c member).symm.trans sign)

theorem sign_eq_absent_of_stops {w : SignedDigits} {rest : List Char}
    (stops : Stops (['+', '-'].contains ·) (w.text ++ rest)) : w.sign = .absent := by
  by_contra present
  obtain ⟨c, text, sign⟩ := exists_sign_of_ne_absent present
  rw [SignedDigits.text, text] at stops
  exact Bool.false_ne_true ((stops c rfl).symm.trans sign)

theorem stops_of_absent {w : SignedDigits} (unsigned : w.sign = .absent) (rest : List Char) :
    Stops (['+', '-'].contains ·) (w.text ++ rest) := by
  rw [SignedDigits.text, unsigned, WrittenSign.text, List.nil_append]
  exact stops_append w.digits.filled fun c member => noSign_of_digit (w.digits.ascii c member)

theorem text_ne_nil (w : SignedDigits) : w.text ≠ [] :=
  fun empty => w.digits.filled (List.append_eq_nil_iff.mp empty).2

theorem colon_not_mem (w : SignedDigits) : ':' ∉ w.text := by
  intro member
  rcases List.mem_append.mp member with inSign | inDigits
  · cases sign : w.sign <;> rw [sign] at inSign <;> exact absurd inSign (by decide)
  · exact absurd (w.digits.ascii _ inDigits) (by decide)

structure SignedOffset where
  sign : WrittenSign
  hours : SignedDigits
  minutes : Option SignedDigits
  first : sign = .absent → hours.sign = .absent

namespace SignedOffset

def text (o : SignedOffset) : List Char :=
  o.sign.text ++ (o.hours.text ++ (o.minutes.map fun m => ':' :: m.text).getD [])

def minutesValue (o : SignedOffset) : ℤ :=
  (o.minutes.map SignedDigits.value).getD 0

def seconds (o : SignedOffset) : ℤ :=
  (o.hours.value * 3600 + o.minutesValue * 60) * signFactor o.sign

theorem parseOffset_text {o : SignedOffset} (fits : OffsetFits o.hours.value o.minutesValue) :
    parseOffset o.text = .ok o.seconds := by
  have hoursFit := fits.hoursFit
  have minutesFit := fits.minutesFit
  have hours : Numeral.read32 o.hours.text = .ok o.hours.value :=
    Numeral.read32_eq_ok_iff.mpr ⟨o.hours, rfl, rfl, by omega, by omega⟩
  have sum := offsetSeconds?_eq_some.mpr ⟨fits, Eq.refl o.seconds⟩
  rw [text, parseOffset_eq_ok_iff fun absent => stops_of_absent (o.first absent) _]
  cases parts : o.minutes with
  | none =>
    have zero : o.minutesValue = 0 := by rw [minutesValue, parts]; rfl
    rw [Option.map_none, Option.getD_none, List.append_nil,
      splitAtColon_of_not_mem (colon_not_mem o.hours)]
    rw [zero] at sum
    exact ⟨_, 0, hours, rfl, sum⟩
  | some m =>
    have own : o.minutesValue = m.value := by rw [minutesValue, parts]; rfl
    rw [own] at minutesFit sum
    have minutes : Numeral.read32 m.text = .ok m.value :=
      Numeral.read32_eq_ok_iff.mpr ⟨m, rfl, rfl, by omega, by omega⟩
    rw [Option.map_some, Option.getD_some, splitAtColon_append (colon_not_mem o.hours)]
    exact ⟨_, _, hours, minutes, sum⟩

theorem exists_of_parseOffset {text : List Char} {seconds : ℤ}
    (taken : parseOffset text = .ok seconds) :
    ∃ o : SignedOffset, o.text = text ∧ OffsetFits o.hours.value o.minutesValue ∧
      o.seconds = seconds := by
  obtain ⟨sign, rest, rfl, first⟩ := exists_sign text
  obtain ⟨hours, minutes, hoursRead, minutesRead, sum⟩ := (parseOffset_eq_ok_iff first).mp taken
  obtain ⟨fits, total⟩ := offsetSeconds?_eq_some.mp sum
  rcases exists_parts rest with noColon | ⟨hoursText, minutesText, noColon, rfl⟩
  · rw [splitAtColon_of_not_mem noColon] at hoursRead minutesRead
    obtain rfl : 0 = minutes := Except.ok.inj minutesRead
    obtain ⟨h, rfl, rfl, -⟩ := Numeral.read32_eq_ok_iff.mp hoursRead
    have unsigned (absent : sign = .absent) : h.sign = .absent := by
      have stops : Stops (['+', '-'].contains ·) (h.text ++ []) := by
        rw [List.append_nil]
        exact first absent
      exact sign_eq_absent_of_stops stops
    exact ⟨⟨sign, h, none, unsigned⟩, congrArg (sign.text ++ ·) (List.append_nil _), fits, total⟩
  · rw [splitAtColon_append noColon] at hoursRead minutesRead
    obtain ⟨h, rfl, rfl, -⟩ := Numeral.read32_eq_ok_iff.mp hoursRead
    obtain ⟨m, rfl, rfl, -⟩ := Numeral.read32_eq_ok_iff.mp minutesRead
    exact ⟨⟨sign, h, some m, fun absent => sign_eq_absent_of_stops (first absent)⟩, rfl, fits,
      total⟩

theorem unsigned_parts {o : SignedOffset}
    (unsigned : ∀ c ∈ o.text.tail, ['+', '-'].contains c = false) :
    o.hours.sign = .absent ∧ ∀ m ∈ o.minutes, m.sign = .absent := by
  obtain ⟨sign, hours, minutes, first⟩ := o
  constructor
  · by_cases absent : sign = .absent
    · exact first absent
    · obtain ⟨c, written, -⟩ := exists_sign_of_ne_absent absent
      refine sign_eq_absent fun d member => unsigned d ?_
      have filled : sign.text ≠ [] := written ▸ List.cons_ne_nil c []
      exact mem_tail_append filled (List.mem_append_left _ member)
  · rintro m ⟨⟩
    refine sign_eq_absent fun d member => unsigned d ?_
    have filled : sign.text ++ hours.text ≠ [] :=
      fun empty => text_ne_nil hours (List.append_eq_nil_iff.mp empty).2
    rw [text, ← List.append_assoc]
    exact mem_tail_append filled (List.mem_cons_of_mem _ member)

end SignedOffset

structure PlainOffset where
  sign : WrittenSign
  hours : Digits
  minutes : Option Digits

namespace PlainOffset
variable (o : PlainOffset)

def text : List Char :=
  o.sign.text ++ (o.hours.chars ++ (o.minutes.map fun m => ':' :: m.chars).getD [])

/-- The seconds in the hours and minutes. -/
def magnitude : ℕ :=
  o.hours.value * 3600 + (o.minutes.map Digits.value).getD 0 * 60

def seconds : ℤ :=
  if o.sign.isMinus then -(o.magnitude : ℤ) else o.magnitude

theorem noSign_of_mem_tail {c : Char} (member : c ∈ o.text.tail) :
    ['+', '-'].contains c = false := by
  have inParts : c ∈ o.hours.chars ++ (o.minutes.map fun m => ':' :: m.chars).getD [] := by
    unfold text at member
    cases sign : o.sign with
    | absent =>
      rw [sign] at member
      exact List.mem_of_mem_tail member
    | plus | minus =>
      rw [sign] at member
      exact member
  rcases List.mem_append.mp inParts with inHours | inMinutes
  · exact noSign_of_digit (o.hours.ascii c inHours)
  · cases minutes : o.minutes with
    | none =>
      rw [minutes] at inMinutes
      cases inMinutes
    | some m =>
      rw [minutes] at inMinutes
      rcases List.mem_cons.mp inMinutes with rfl | inDigits
      · rfl
      · exact noSign_of_digit (m.ascii c inDigits)

def signed : SignedOffset :=
  ⟨o.sign, ⟨.absent, o.hours⟩, o.minutes.map fun m => ⟨.absent, m⟩, fun _ => rfl⟩

theorem text_signed : o.signed.text = o.text := by
  cases minutes : o.minutes <;>
    simp [SignedOffset.text, signed, text, SignedDigits.text, WrittenSign.text, minutes]

theorem hours_signed : o.signed.hours.value = o.hours.value :=
  SignedDigits.value_of_absent rfl

theorem minutesValue_signed :
    o.signed.minutesValue = ((o.minutes.map Digits.value).getD 0 : ℕ) := by
  cases minutes : o.minutes <;>
    simp [SignedOffset.minutesValue, signed, SignedDigits.value, WrittenSign.isMinus, minutes]

theorem magnitude_signed :
    o.signed.hours.value * 3600 + o.signed.minutesValue * 60 = o.magnitude := by
  rw [hours_signed, minutesValue_signed, magnitude]
  push_cast
  rfl

theorem seconds_signed : o.signed.seconds = o.seconds := by
  rw [SignedOffset.seconds, magnitude_signed, seconds, signFactor, signed]
  split <;> simp

theorem fits_signed : OffsetFits o.signed.hours.value o.signed.minutesValue ↔
    o.magnitude < 86400 := by
  have total := o.magnitude_signed
  have hours := o.hours_signed
  have minutes := o.minutesValue_signed
  constructor
  · intro fits
    have below := fits.below
    omega
  · intro small
    exact ⟨by omega, by omega, by omega⟩

theorem exists_signed_eq {w : SignedOffset} (hours : w.hours.sign = .absent)
    (minutes : ∀ m ∈ w.minutes, m.sign = .absent) : ∃ o : PlainOffset, o.signed = w := by
  obtain ⟨sign, ⟨_, digits⟩, parts, first⟩ := w
  obtain rfl := hours
  cases parts with
  | none => exact ⟨⟨sign, digits, none⟩, rfl⟩
  | some m =>
    obtain ⟨_, minuteDigits⟩ := m
    obtain rfl := minutes _ rfl
    exact ⟨⟨sign, digits, some minuteDigits⟩, rfl⟩

end PlainOffset

/-- Hours and minutes with one sign in front, which together stay below a day, are taken for their
magnitude with that sign, and nothing else is taken that has no sign behind its first character.
What is taken at all are hours and minutes that may have signs of their own. -/
theorem offsets_follow_the_grammar (text : List Char) (seconds : ℤ) :
    ((∃ o : PlainOffset, o.text = text ∧ o.magnitude < 86400 ∧ o.seconds = seconds) ↔
      parseOffset text = .ok seconds ∧ ∀ c ∈ text.tail, c ≠ '+' ∧ c ≠ '-') ∧
    (parseOffset text = .ok seconds ↔ ∃ o : SignedOffset, o.text = text ∧
      OffsetFits o.hours.value o.minutesValue ∧ o.seconds = seconds) := by
  simp only [← noSign_iff]
  refine ⟨⟨?_, ?_⟩, SignedOffset.exists_of_parseOffset, ?_⟩
  · rintro ⟨o, rfl, small, rfl⟩
    refine ⟨?_, fun c => o.noSign_of_mem_tail⟩
    rw [← o.text_signed, ← o.seconds_signed]
    exact SignedOffset.parseOffset_text (o.fits_signed.mpr small)
  · rintro ⟨taken, unsigned⟩
    obtain ⟨w, rfl, fits, rfl⟩ := SignedOffset.exists_of_parseOffset taken
    obtain ⟨hours, minutes⟩ := SignedOffset.unsigned_parts unsigned
    obtain ⟨o, rfl⟩ := PlainOffset.exists_signed_eq hours minutes
    exact ⟨o, o.text_signed.symm, o.fits_signed.mp fits, o.seconds_signed.symm⟩
  · rintro ⟨o, rfl, fits, rfl⟩
    exact SignedOffset.parseOffset_text fits

/-- A second sign is taken for that of the hours alone, so the minutes count the other way. -/
theorem second_sign_is_taken :
    parseOffset "+-1:30".toList = .ok (-1800) ∧
      ¬ ∃ o : PlainOffset, o.text = "+-1:30".toList := by
  refine ⟨by decide, ?_⟩
  rintro ⟨o, text⟩
  have second : '-' ∈ o.text.tail := by
    rw [text]
    decide
  exact absurd (o.noSign_of_mem_tail second) (by decide)

end ConfigExpr.CommandLine
