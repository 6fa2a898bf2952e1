import ConfigExpr.Proofs.DatePhrase.CivilTokens
import ConfigExpr.Proofs.DatePhrase.RoundTrip

/-!
Dates written by the letter `c`. With a year of four digits they are complete civil times, which
denote their instant wherever they are read. A year before 1000 is written without zeros in front,
and then neither the forms of a civil time nor those of a token fit.
-/
namespace ConfigExpr.DatePhrase
open Calendar Text Scan

namespace Rfc3339
variable {rest : List Char}

theorem fraction_takes {part : List Char} (is : IsFraction part) (noDot : Stops (· == '.') rest)
    (noDigit : Stops isAsciiDigit rest) : fraction (part ++ rest) = some ((), rest) := by
  cases is with
  | absent => exact fraction_stops noDot
  | written run filled =>
    have digits : (some1 isAsciiDigit >>= fun _ => (pure () : Scan Unit)) (run.digits ++ rest) =
        some ((), rest) := by
      rw [bind_of_takes (some1_takes (run.digits_ne_nil filled) run.ascii noDigit), pure_apply]
    exact digits

theorem sign_takes (west : Bool) :
    sign (Token.signOf west :: rest) = some (if west then -1 else 1, rest) := by
  cases west with
  | false | true => rfl

/-- The minutes of an offset are below sixty, which tokens do not ask for. -/
def IsClockZone : ZoneText → Prop
  | .utc _ => True
  | .signed _ _ minutes => minutes.value < 60

theorem offset_takes {zone : ZoneText} (clock : IsClockZone zone) :
    offset zone.text = some (zone.seconds, []) := by
  cases zone with
  | utc capital =>
    cases capital with
    | false | true => rfl
  | signed west hours minutes =>
    have takesMinutes : minuteNumber minutes.digits = some (minutes.value, []) := by
      have takes : fixedNumber 2 (minutes.digits ++ []) = _ := minutes.fixedNumber_takes
      rw [List.append_nil] at takes
      have below : minutes.value < 60 := clock
      have small : Scan.require (decide (minutes.value < 60)) [] = some ((), []) :=
        if_pos (decide_eq_true below)
      rw [minuteNumber, bind_of_takes takes, bind_of_takes small, pure_apply]
    have noLetter {text} : Stops (fun c => c == 'Z' || c == 'z') (Token.signOf west :: text) := by
      cases west with
      | false | true => exact stops_cons rfl
    rw [ZoneText.text, Token.zoneText, offset, firstOf_of_fails (bind_of_fails (one_fails noLetter))]
    refine firstOf_of_takes ?_
    rw [numericOffset, bind_of_takes (sign_takes west), bind_of_takes hours.fixedNumber_takes,
      bind_of_takes char_takes, bind_of_takes takesMinutes, pure_apply, ZoneText.seconds, Token.ofZone]
    cases west with
    | false => simp
    | true => simp

end Rfc3339

namespace ZoneText

theorem text_stops (zone : ZoneText) {p : Char → Bool}
    (others : ['Z', 'z', '+', '-'].any p = false) : Stops p zone.text := by
  have each := List.any_eq_false.mp others
  cases zone with
  | utc capital =>
    cases capital with
    | false => exact stops_cons (Bool.eq_false_iff.mpr (each 'z' (by decide)))
    | true => exact stops_cons (Bool.eq_false_iff.mpr (each 'Z' (by decide)))
  | signed west hours minutes =>
    cases west with
    | false => exact stops_cons (Bool.eq_false_iff.mpr (each '+' (by decide)))
    | true => exact stops_cons (Bool.eq_false_iff.mpr (each '-' (by decide)))

theorem text_reverse_stops (zone : ZoneText) {rest : List Char} :
    Stops isBlank (zone.text.reverse ++ rest) := by
  cases zone with
  | utc capital =>
    cases capital with
    | false | true => exact stops_cons (by decide)
  | signed west hours minutes =>
    rw [text, Token.zoneText, List.reverse_cons, List.reverse_append, List.reverse_cons,
      List.append_assoc, List.append_assoc, List.append_assoc]
    exact minutes.reverse_stops (by decide) rfl

end ZoneText

namespace CivilText
variable {w : CivilText}

theorem scan_text (clock : Rfc3339.IsClockZone w.zone) :
    Rfc3339.scan w.text = some (w.time, []) := by
  rw [Rfc3339.scan, text, bind_of_takes w.year.fixedNumber_takes, bind_of_takes char_takes,
    bind_of_takes w.month.fixedNumber_takes, bind_of_takes char_takes,
    bind_of_takes w.day.fixedNumber_takes, bind_of_takes (one_takes w.separates),
    bind_of_takes w.hour.fixedNumber_takes, bind_of_takes char_takes,
    bind_of_takes w.minute.fixedNumber_takes, bind_of_takes char_takes,
    bind_of_takes w.second.fixedNumber_takes,
    bind_of_takes (Rfc3339.fraction_takes w.isFraction (w.zone.text_stops rfl)
      (w.zone.text_stops rfl)),
    bind_of_takes (Rfc3339.offset_takes clock), pure_apply, time]

theorem strip_text (w : CivilText) : strip isBlank w.text = w.text := by
  refine strip_of_stops (w.year.stops (by decide) rfl) ?_
  simp only [text, List.reverse_append, List.reverse_cons, List.append_assoc]
  exact w.zone.text_reverse_stops

theorem parse_text (clock : Rfc3339.IsClockZone w.zone) (valid : w.time.isValid = true)
    (supported : isSupportedInstant w.time.instant = true) (base offset : Int) :
    parse (String.ofList w.text) base offset = .ok w.time.instant := by
  have civil : Rfc3339.parse? w.text = some w.time.instant := by
    rw [Rfc3339.parse?, w.scan_text clock]
    exact if_pos (by rw [valid, supported]; rfl)
  rw [parse, String.toList_ofList, strip_text]
  split
  next empty =>
    rw [empty] at civil
    cases civil
  next => rw [civil]

end CivilText

namespace Token
variable {n : Nat} {text rest : List Char}

theorem digitsUpTo2_shortYear (year : DigitRun n) (filled : 0 < n) (short : n < 4)
    (rest : List Char) :
    ∃ taken behind, digitsUpTo2 (year.digits ++ '-' :: rest) = some (taken, behind) ∧
      (behind = '-' :: rest ∨ ∃ third : DigitRun 1, behind = third.digits ++ '-' :: rest) := by
  by_cases few : n ≤ 2
  · refine ⟨_, _, year.upTo_takes rfl filled ?_, .inl rfl⟩
    rcases Nat.lt_or_eq_of_le few with one | two
    · exact .inr ⟨one, stops_cons (by decide)⟩
    · exact .inl two
  · obtain rfl : n = 3 := by omega
    have three := year.length_eq
    let pair : DigitRun 2 :=
      ⟨year.digits.take 2, fun c member => year.ascii c (List.mem_of_mem_take member), by
        rw [List.length_take, three]; rfl⟩
    let third : DigitRun 1 :=
      ⟨year.digits.drop 2, fun c member => year.ascii c (List.mem_of_mem_drop member), by
        rw [List.length_drop, three]⟩
    refine ⟨pair.digits, third.digits ++ '-' :: rest, ?_, .inr ⟨third, rfl⟩⟩
    rw [← List.take_append_drop 2 year.digits, List.append_assoc]
    exact pair.upTo_takes rfl (by decide) (.inl rfl)

section ShortYear
variable (year : DigitRun n) (month day : DigitRun 2)

theorem dayFirstForm_shortYear {taken behind : List Char}
    (takes : digitsUpTo2 (year.digits ++ '-' :: (month.digits ++ '-' :: (day.digits ++ 't' :: rest))) =
      some (taken, behind))
    (next : behind = '-' :: (month.digits ++ '-' :: (day.digits ++ 't' :: rest)) ∨
      ∃ third : DigitRun 1, behind = third.digits ++ '-' :: (month.digits ++ '-' ::
        (day.digits ++ 't' :: rest))) :
    dayFirstForm
      (year.digits ++ '-' :: (month.digits ++ '-' :: (day.digits ++ 't' :: rest))) = none := by
  rcases next with rfl | ⟨third, rfl⟩
  · have noEnd : yearEnd (day.digits ++ 't' :: rest) = none :=
      bind_of_fails (day.exactly_fails rfl (by decide) (stops_cons (by decide)))
    have takesMonth {rest} : digitsUpTo2 (month.digits ++ rest) = some (month.digits, rest) :=
      month.upTo_takes rfl (by decide) (.inl rfl)
    rw [dayFirstForm, bind_of_takes takes, oneOf, bind_of_takes (one_takes rfl),
      bind_of_takes takesMonth, bind_of_takes (one_takes rfl), bind_of_fails noEnd]
  · exact dayFirstForm_fails takes (third.stops (by decide) rfl)

theorem shiftForm_shortYear (filled : 0 < n) :
    shiftForm (year.digits ++ '-' :: rest) = none := by
  have unsigned : opt (oneOf ['+', '-']) (year.digits ++ '-' :: rest) =
      some (none, year.digits ++ '-' :: rest) :=
    opt_of_fails (one_fails (year.stops filled rfl))
  have amount : digits (year.digits ++ '-' :: rest) = some (year.digits, '-' :: rest) :=
    some1_takes (year.digits_ne_nil filled) (year.forall_mem rfl) (stops_cons (by decide))
  rw [shiftForm, bind_of_takes unsigned, bind_of_takes (blanks_stops (year.stops filled rfl)),
    bind_of_takes amount, bind_of_takes (blanks_stops (stops_cons rfl)),
    bind_of_fails (word_fails (stops_cons rfl))]

theorem scan_shortYear (filled : 0 < n) (short : n < 4) :
    scan (year.digits ++ '-' :: (month.digits ++ '-' :: (day.digits ++ 't' :: rest))) = none := by
  have noYear {rest} : digitsOf 4 (year.digits ++ '-' :: rest) = none :=
    year.exactly_fails rfl short (stops_cons (by decide))
  have noWord {rest} : monthWord (year.digits ++ rest) = none :=
    monthWord_fails (year.stops filled rfl)
  have noLetter {rest} : Stops Char.isLower (year.digits ++ rest) := year.stops filled rfl
  obtain ⟨taken, behind, takes, next⟩ := digitsUpTo2_shortYear year filled short
    (month.digits ++ '-' :: (day.digits ++ 't' :: rest))
  have behindStops {p : Char → Bool} (others : ('-' :: asciiDigits).any p = false) :
      Stops p behind := by
    rw [List.any_cons, Bool.or_eq_false_iff] at others
    rcases next with rfl | ⟨third, rfl⟩
    · exact stops_cons others.1
    · exact third.stops (by decide) others.2
  have notDayMonth : dayMonthForm
      (year.digits ++ '-' :: (month.digits ++ '-' :: (day.digits ++ 't' :: rest))) = none := by
    rcases next with rfl | ⟨third, rfl⟩
    · exact dayMonthForm_fails takes (stops_cons rfl) (List.singleton_append).symm
        (List.forall_mem_singleton.mpr rfl) (month.stops (by decide) rfl) (month.stops (by decide) rfl)
    · exact dayMonthForm_fails takes (third.stops (by decide) rfl) (List.nil_append _).symm
        (fun c member => nomatch member) (third.stops (by decide) rfl)
        (third.stops (by decide) rfl)
  rw [scan, forms, firstOf_of_fails (timestampForm_fails (year.stops filled rfl)),
    firstOf_of_fails (isoForm_fails noYear), firstOf_of_fails (slashForm_fails noYear),
    firstOf_of_fails (americanForm_fails takes (behindStops rfl)),
    firstOf_of_fails (dayFirstForm_shortYear year month day takes next),
    firstOf_of_fails (monthYearForm_fails noWord), firstOf_of_fails notDayMonth,
    firstOf_of_fails (monthDayForm_fails noWord),
    firstOf_of_fails (timeForm_fails takes (behindStops rfl)),
    firstOf_of_fails (hourForm_fails takes (behindStops rfl) (behindStops rfl)),
    firstOf_of_fails (shiftForm_shortYear year filled)]
  exact lateForms_fail noLetter (year.stops filled rfl)

end ShortYear

end Token

theorem parse_shortYear {n : Nat} (year : DigitRun n) (filled : 0 < n) (short : n < 4)
    (month day : DigitRun 2) {rest : List Char} (ending : Stops isBlank rest.reverse)
    (more : rest ≠ []) (base offset : Int) :
    parse (String.ofList (year.digits ++ '-' :: (month.digits ++ '-' :: (day.digits ++ 'T' :: rest))))
      base offset = .error .notUnderstood := by
  have start {p : Char → Bool} {rest : List Char} (others : asciiDigits.any p = false) :
      Stops p (year.digits ++ rest) :=
    year.stops filled others
  have lower : (year.digits ++ '-' :: (month.digits ++ '-' :: (day.digits ++ 'T' :: rest))).map
      Char.toLower = year.digits ++ '-' :: (month.digits ++ '-' :: (day.digits ++ 't' ::
        rest.map Char.toLower)) := by
    simp only [List.map_append, List.map_cons, DigitRun.map_toLower]
    rfl
  have tokens : Token.tokens? (year.digits ++ '-' :: (month.digits ++ '-' ::
      (day.digits ++ 't' :: rest.map Char.toLower))) = none := by
    refine Token.tokens?_of_scan (start rfl) (by simp) fun token rest scanned => ?_
    rw [Token.scan_shortYear year month day filled short] at scanned
    cases scanned
  rw [parse_eq_parseTokens (start rfl) ?_
    (Rfc3339.scan_of_fixedNumber (year.fixedNumber_fails short (stops_cons rfl)))
    (Rfc2822.scan_of_number year filled (stops_cons rfl) (stops_cons rfl)) (by simp)]
  · rw [parseTokens, lower, tokens]
    rfl
  · have last : ∃ c front, rest.reverse = c :: front := List.exists_cons_of_ne_nil
      (fun none => more (List.reverse_eq_nil_iff.mp none))
    obtain ⟨c, front, turned⟩ := last
    rw [turned] at ending
    simp only [List.reverse_append, List.reverse_cons, List.append_assoc, turned]
    exact stops_cons (ending c rfl)

section Printed
open Numeral DateFormat
variable (t : LocalTime)

/-- The time of day and the offset, as they stand behind the date. -/
def isoClock : List Char :=
  (hourRun t).digits ++ ':' :: ((minuteRun t).digits ++ ':' :: ((secondRun t).digits ++
    offsetText t.offset [':']))

theorem format_iso : format "c" t = String.ofList (ofInt (yearOf t.day) ++ '-' ::
    ((monthRun t).digits ++ '-' :: ((dayRun t).digits ++ 'T' :: isoClock t))) := by
  have written : expand (composite t) "c".toList = expand (letter t) isoFormat.toList ++ [] := rfl
  have zone : letter t 'P' ++ [] = offsetText t.offset [':'] := List.append_nil _
  rw [format, written, List.append_nil, isoClock, ← zone]
  rfl

def zoneOf (offset : Int) (fixed : offset.natAbs < 86400) : ZoneText :=
  .signed (decide (offset < 0)) (.ofPadded 2 (offset.natAbs / 3600) Nat.two_pos (by omega))
    (.ofPadded 2 (offset.natAbs % 3600 / 60) Nat.two_pos (by omega))

variable {t}

theorem text_zoneOf {offset : Int} (fixed : offset.natAbs < 86400) :
    (zoneOf offset fixed).text = offsetText offset [':'] := by
  rw [zoneOf, ZoneText.text, Token.zoneText, offsetText, Token.signOf]
  simp only [decide_eq_true_eq, List.cons_append, List.append_assoc, List.nil_append]
  rfl

theorem seconds_zoneOf {offset : Int} (fixed : offset.natAbs < 86400) (minutes : offset % 60 = 0) :
    (zoneOf offset fixed).seconds = offset := by
  rw [zoneOf, ZoneText.seconds, Token.ofZone, DigitRun.value_ofPadded, DigitRun.value_ofPadded]
  simp only [decide_eq_true_eq]
  split <;> omega

theorem isClockZone_zoneOf {offset : Int} (fixed : offset.natAbs < 86400) :
    Rfc3339.IsClockZone (zoneOf offset fixed) := by
  rw [zoneOf, Rfc3339.IsClockZone, DigitRun.value_ofPadded]
  omega

/-- The parts of a date written by the letter, if its year has four digits. -/
def isoParts (t : LocalTime) (low : 1000 ≤ yearOf t.day) (high : yearOf t.day ≤ 9999)
    (fixed : t.offset.natAbs < 86400) : CivilText where
  year := yearRun (yearOf t.day) low high
  month := monthRun t
  day := dayRun t
  separator := 'T'
  separates := rfl
  hour := hourRun t
  minute := minuteRun t
  second := secondRun t
  fraction := []
  isFraction := .absent
  zone := zoneOf t.offset fixed

section FourDigits
variable (low : 1000 ≤ yearOf t.day) (high : yearOf t.day ≤ 9999)
  (fixed : t.offset.natAbs < 86400)
include low high fixed

theorem time_isoParts (minutes : t.offset % 60 = 0) : (isoParts t low high fixed).time =
    ⟨yearOf t.day, monthOf t.day, dayOfMonth t.day, t.hour, t.minute, t.second, t.offset⟩ := by
  have year : ((yearOf t.day).toNat : Int) = yearOf t.day := Int.toNat_of_nonneg (by omega)
  simp only [CivilText.time, isoParts, value_yearRun, monthRun, dayRun, hourRun, minuteRun,
    secondRun, DigitRun.value_ofPadded, seconds_zoneOf fixed minutes, year]

theorem parse_iso (minutes : t.offset % 60 = 0) (base offset : Int) :
    parse (format "c" t) base offset = .ok t.instant := by
  have written : format "c" t = String.ofList (isoParts t low high fixed).text := by
    rw [format_iso, CivilText.text, isoClock, ← text_zoneOf fixed]
    rfl
  obtain ⟨months, days, told⟩ := monthDay_spec t.day
  have hour := t.hour_lt
  have minute := t.minute_lt
  have second := t.second_lt
  have clock := t.clock_eq
  have whole := dayOf_secondOfDay t.seconds
  have instant : (isoParts t low high fixed).time.instant = t.instant := by
    rw [time_isoParts low high fixed minutes, CivilTime.instant, CivilTime.dayNumber, told]
    simp only [LocalTime.day, LocalTime.seconds] at clock whole ⊢
    omega
  have valid : (isoParts t low high fixed).time.isValid = true := by
    have year : isSupportedYear (yearOf t.day) = true := by
      rw [isSupportedYear, minYear, maxYear, Bool.and_eq_true, decide_eq_true_eq,
        decide_eq_true_eq]
      omega
    rw [time_isoParts low high fixed minutes]
    simp only [CivilTime.isValid, year, Bool.and_eq_true, decide_eq_true_eq, true_and]
    omega
  have supported : isSupportedInstant (isoParts t low high fixed).time.instant = true := by
    rw [instant]
    exact isSupportedInstant_of_year fixed low high
  rw [written, CivilText.parse_text (isClockZone_zoneOf fixed) valid supported, instant]

end FourDigits

theorem parse_iso_of_shortYear (low : 0 ≤ yearOf t.day) (high : yearOf t.day < 1000)
    (fixed : t.offset.natAbs < 86400) (base offset : Int) :
    parse (format "c" t) base offset = .error .notUnderstood := by
  have short : (ofNat (yearOf t.day).toNat).length ≤ 3 := length_ofNat_le (by decide) (by omega)
  have ending : Stops isBlank (isoClock t).reverse := by
    rw [isoClock, ← text_zoneOf fixed]
    simp only [List.reverse_append, List.reverse_cons, List.append_assoc]
    exact (zoneOf t.offset fixed).text_reverse_stops
  rw [format_iso, ofInt_of_nonneg low]
  exact parse_shortYear (.ofNumeral (yearOf t.day).toNat) (DigitRun.length_numeral_pos _)
    (Nat.lt_succ_of_le short) (monthRun t) (dayRun t) ending (by simp [isoClock]) base offset

end Printed

end ConfigExpr.DatePhrase
