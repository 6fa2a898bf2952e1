import ConfigExpr.Calendar.DateFormat
import ConfigExpr.Proofs.DatePhrase.CivilReadings
import ConfigExpr.Proofs.DatePhrase.Phrases

/-!
Dates written in a format that shows date and time of day are phrases that give the instant back, at
whatever base they are read. The year has four digits, so that no other form of a date fits first.
-/
namespace ConfigExpr.DatePhrase
open Calendar

namespace Reading

def ofTimestamp (seconds : Int) : Reading :=
  { empty with timestamp := some seconds }

theorem hourOfDay?_clockHour {hour : Nat} (day : hour < 24) :
    hourOfDay? (DateFormat.clockHour hour) (some (if hour < 12 then .am else .pm)) = some hour := by
  have each : ∀ hour < 24, hourOfDay? (DateFormat.clockHour hour)
      (some (if hour < 12 then .am else .pm)) = some hour := by decide
  exact each hour day

theorem local?_ofTimestamp {here seconds : Int} (supported : isSupportedInstant here = true) :
    (ofTimestamp seconds).local? here = some here := by
  have shown : (ofTimestamp seconds).local? here =
      some (dayOf here * 86400 + secondOfDay here) :=
    local?_of_unshifted rfl rfl ((dayOf_secondOfDay here).symm ▸ supported)
  rw [shown, dayOf_secondOfDay]

theorem resolve_ofTimestamp {seconds : Int} (supported : isSupportedInstant seconds = true)
    (base offset : Int) : (ofTimestamp seconds).resolve base offset = .ok seconds := by
  have inUtc : isSupportedInstant (seconds + 0) = true := (Int.add_zero seconds).symm ▸ supported
  change readAt seconds 0 (ofTimestamp seconds).local? = _
  rw [readAt_of_supported supported inUtc, local?_ofTimestamp inUtc, Option.map_some, Int.add_zero,
    Int.sub_zero, understood]

end Reading

section Printed
open Numeral DateFormat
variable (t : LocalTime)

def monthRun : DigitRun 2 :=
  .ofPadded 2 (monthOf t.day) (by decide) (by have := (monthDay_spec t.day).1; omega)

def dayRun : DigitRun 2 :=
  .ofPadded 2 (dayOfMonth t.day) (by decide) (by have := dayOfMonth_le t.day; omega)

def hourRun : DigitRun 2 :=
  .ofPadded 2 t.hour (by decide) (by have := t.hour_lt; omega)

def minuteRun : DigitRun 2 :=
  .ofPadded 2 t.minute (by decide) (by have := t.minute_lt; omega)

def secondRun : DigitRun 2 :=
  .ofPadded 2 t.second (by decide) (by have := t.second_lt; omega)

def clockHourRun : DigitRun (ofNat (clockHour t.hour)).length :=
  .ofNumeral (clockHour t.hour)

def half : Half :=
  if t.hour < 12 then .am else .pm

theorem halfText_half : Token.halfText (some (half t)) = ' ' :: letter t 'a' := by
  change _ = ' ' :: if t.hour < 12 then ['a', 'm'] else ['p', 'm']
  rw [half]
  split <;> rfl

theorem length_clockHour_le : (ofNat (clockHour t.hour)).length ≤ 2 := by
  refine length_ofNat_le (by decide) ?_
  rw [clockHour]
  split <;> omega

def yearRun (year : Int) (low : 1000 ≤ year) (high : year ≤ 9999) : DigitRun 4 where
  digits := ofInt year
  ascii c member := by
    rw [ofInt_of_nonneg (by omega)] at member
    exact isAsciiDigit_of_mem_ofNat member
  length_eq := by
    have length : (ofNat year.toNat).length = 3 + 1 := length_ofNat (by omega) (by omega)
    rw [ofInt_of_nonneg (by omega), length]

theorem value_yearRun {year : Int} (low : 1000 ≤ year) (high : year ≤ 9999) :
    (yearRun year low high).value = year.toNat := by
  change Text.decimalValue (ofInt year) = _
  rw [ofInt_of_nonneg (by omega), decimalValue_ofNat]

variable {t}

theorem parse_of_printed (low : 1000 ≤ yearOf t.day) (high : yearOf t.day ≤ 9999) {n : Nat}
    {hour : DigitRun n} {mark : Option Half}
    (hours : Reading.hourOfDay? hour.value mark = some t.hour) {text : List Char}
    {tokens : List Token} (phrase : IsPhrase text tokens)
    (printed : tokens.Perm [Token.ofDate (yearRun _ low high) (monthRun t) (dayRun t),
      Token.ofClock hour (minuteRun t) (secondRun t) mark])
    {base : Int} (supportedBase : isSupportedInstant base = true) :
    parse (String.ofList text) base t.offset =
      if isSupportedInstant (base + t.offset) then .ok t.instant else .error .noLocalTime := by
  obtain ⟨months, ⟨first, -⟩, -⟩ := monthDay_spec t.day
  have days : 1 ≤ dayOfMonth t.day ∧ dayOfMonth t.day ≤ 31 := ⟨first, dayOfMonth_le t.day⟩
  have named : ((yearOf t.day).toNat : Int) = yearOf t.day := Int.toNat_of_nonneg (by omega)
  have means : Reading.ofTokens? tokens = some (.civil (yearOf t.day).toNat (monthOf t.day)
      (dayOfMonth t.day) (t.hour * 3600 + t.minute * 60 + t.second)) := by
    rw [Reading.ofTokens?_perm printed (by simp [Token.ofDate, Token.ofClock, Token.isAbsolute])]
    simp only [Token.ofDate, Token.ofClock, value_yearRun, monthRun, dayRun, minuteRun, secondRun,
      DigitRun.value_ofPadded]
    exact Reading.ofTokens?_civil months days hours t.minute_lt t.second_lt
  have filled : tokens ≠ [] := fun empty => by
    rw [empty] at printed
    cases printed.length_eq
  rw [phrase.parse_eq filled means, t.clock_eq, Reading.resolve_civil (by omega) months days
    (secondOfDay_lt _), readAt_const supportedBase, named, dayNumber_first_add, LocalTime.day,
    dayOf_secondOfDay, LocalTime.seconds, Int.add_sub_cancel]

/-- Formats that show the date and the time of day, or the instant. -/
def readableFormats : List String :=
  ["Y-m-d H:i:s", "Y/m/d H:i:s", "m/d/Y H:i:s", "d.m.Y H:i:s", "H:i:s Y-m-d", "Y-m-d g:i:s a", "@U"]

theorem parse_format {pattern : String} (listed : pattern ∈ readableFormats)
    (low : 1000 ≤ yearOf t.day) (high : yearOf t.day ≤ 9999)
    (supported : isSupportedInstant t.instant = true) {base : Int}
    (supportedBase : isSupportedInstant base = true) :
    parse (format pattern t) base t.offset =
      if pattern = "@U" ∨ isSupportedInstant (base + t.offset) then .ok t.instant
      else .error .noLocalTime := by
  have hours : Reading.hourOfDay? (hourRun t).value none = some t.hour := by
    rw [hourRun, DigitRun.value_ofPadded, Reading.hourOfDay?_unmarked t.hour_lt]
  have clockHours : Reading.hourOfDay? (clockHourRun t).value (some (half t)) = some t.hour := by
    rw [clockHourRun, DigitRun.value_ofNumeral, half, Reading.hourOfDay?_clockHour t.hour_lt]
  let year := yearRun (yearOf t.day) low high
  let clock := clockText (hourRun t) (minuteRun t) (secondRun t) none
  have dated {pattern : String} {date : List Char} (notU : pattern ≠ "@U")
      (written : expand (composite t) pattern.toList = date ++ ' ' :: clock)
      (phrase : IsPhrase (date ++ ' ' :: clock) [Token.ofDate year (monthRun t) (dayRun t),
        Token.ofClock (hourRun t) (minuteRun t) (secondRun t) none]) :
      parse (format pattern t) base t.offset =
        if pattern = "@U" ∨ isSupportedInstant (base + t.offset) then .ok t.instant
        else .error .noLocalTime := by
    simp only [notU, false_or]
    rw [format, written]
    exact parse_of_printed low high hours phrase (.refl _) supportedBase
  simp only [readableFormats, List.mem_cons, List.not_mem_nil, or_false] at listed
  rcases listed with rfl | rfl | rfl | rfl | rfl | rfl | rfl
  · refine dated (by decide) ?_ (isPhrase_iso year (monthRun t) (dayRun t) (by decide) (by decide))
    rw [isoText, List.append_assoc, List.cons_append, List.append_assoc]
    rfl
  · refine dated (by decide) ?_ (isPhrase_slash year (monthRun t) (dayRun t) (by decide) (by decide))
    rw [slashText, List.append_assoc, List.cons_append, List.append_assoc]
    rfl
  · refine dated (by decide) ?_ (isPhrase_american year (monthRun t) (dayRun t) (by decide) (by decide))
    rw [americanText, List.append_assoc, List.cons_append, List.append_assoc]
    rfl
  · refine dated (by decide) ?_ (isPhrase_dayFirst year (monthRun t) (dayRun t) (by decide) (by decide))
    rw [dayFirstText, List.append_assoc, List.cons_append, List.append_assoc]
    rfl
  · have written : expand (composite t) "H:i:s Y-m-d".toList =
        clock ++ ' ' :: isoText year (monthRun t) (dayRun t) := by
      rw [← List.append_nil (isoText year (monthRun t) (dayRun t))]
      simp only [clock, clockText, Token.halfText, isoText, List.append_assoc, List.cons_append,
        List.nil_append]
      rfl
    have notU : "H:i:s Y-m-d" ≠ "@U" := by decide
    simp only [notU, false_or]
    rw [format, written]
    exact parse_of_printed low high hours (isPhrase_clock_iso year _ _ _) (.swap _ _ _)
      supportedBase
  · have written : expand (composite t) "Y-m-d g:i:s a".toList =
        isoText year (monthRun t) (dayRun t) ++ ' ' ::
          clockText (clockHourRun t) (minuteRun t) (secondRun t) (some (half t)) := by
      rw [isoText, clockText, halfText_half, ← List.append_nil (letter t 'a'), List.append_assoc,
        List.cons_append, List.append_assoc]
      rfl
    have notU : "Y-m-d g:i:s a" ≠ "@U" := by decide
    simp only [notU, false_or]
    rw [format, written]
    exact parse_of_printed low high clockHours (isPhrase_iso year _ _
      (DigitRun.length_numeral_pos _) (length_clockHour_le t)) (.refl _) supportedBase
  · have bounds := bounds_of_isSupportedInstant supported
    have written : expand (composite t) "@U".toList = '@' :: ofInt t.instant :=
      congrArg ('@' :: ·) (List.append_nil _)
    rw [format, written, (isPhrase_timestamp (by omega) (by omega)).parse_eq (by simp) rfl,
      if_pos (.inl rfl)]
    exact Reading.resolve_ofTimestamp supported base t.offset

end Printed

end ConfigExpr.DatePhrase
