import ConfigExpr.Proofs.DatePhrase.DigitRuns

/-!
Printed dates and times as tokens. The forms of tokens overlap and the first that fits decides, so
each layout comes with the forms before its own, all of which fail on it.
-/
namespace ConfigExpr.DatePhrase
open Text Scan

namespace Token
variable {n : Nat} {text rest : List Char} (year : DigitRun 4) (month day : DigitRun 2)

def ofDate (year : DigitRun 4) (month day : DigitRun 2) : Token :=
  .date (some year.value) month.value day.value

def ofClock (hour : DigitRun n) (minute second : DigitRun 2) (half : Option Half) : Token :=
  .time hour.value minute.value second.value half

theorem fullDate_runs :
    fullDate year.digits month.digits day.digits =
      some (ofDate year month day) := by
  simp only [fullDate, ofDate, DigitRun.number?_eq, Option.bind_eq_bind, Option.bind_some,
    Option.pure_def]

theorem timestampForm_fails (stops : Stops (· == '@') text) : timestampForm text = none :=
  bind_of_fails (char_fails stops)

theorem isoForm_fails (noYear : digitsOf 4 text = none) : isoForm text = none :=
  bind_of_fails noYear

theorem slashForm_fails (noYear : digitsOf 4 text = none) : slashForm text = none :=
  bind_of_fails noYear

theorem monthWord_fails (stops : Stops Char.isLower text) : monthWord text = none :=
  bind_of_fails (letters_fails stops)

theorem monthYearForm_fails (noWord : monthWord text = none) : monthYearForm text = none :=
  bind_of_fails noWord

theorem monthDayForm_fails (noWord : monthWord text = none) : monthDayForm text = none :=
  bind_of_fails noWord

section Behind
variable {taken behind : List Char} (takes : digitsUpTo2 text = some (taken, behind))
include takes

theorem americanForm_fails (other : Stops (· == '/') behind) : americanForm text = none :=
  (bind_of_takes takes).trans (bind_of_fails (char_fails other))

theorem dayFirstForm_fails (other : Stops ['.', '-'].contains behind) : dayFirstForm text = none :=
  (bind_of_takes takes).trans (bind_of_fails (one_fails other))

theorem timeForm_fails (other : Stops (· == ':') behind) : timeForm text = none :=
  (bind_of_takes takes).trans (bind_of_fails (char_fails other))

theorem hourForm_fails (noBlank : Stops isBlank behind) (other : Stops ['a', 'p'].contains behind) :
    hourForm text = none := by
  have noMark : halfMark behind = none := bind_of_fails (one_fails other)
  rw [hourForm, bind_of_takes takes, bind_of_takes (blanks_stops noBlank), bind_of_fails noMark]

theorem dayMonthForm_fails (noEnding : Stops Char.isLower behind) {gap rest : List Char}
    (split : behind = gap ++ rest) (gaps : ∀ c ∈ gap, isGap c = true) (noGap : Stops isGap rest)
    (noWord : Stops Char.isLower rest) : dayMonthForm text = none := by
  have plain : ordinalEnding behind = none := bind_of_fails (exactly_stops (by decide) noEnding)
  rw [dayMonthForm, bind_of_takes takes, bind_of_takes (opt_of_fails plain), split,
    bind_of_takes (run_takes gaps noGap), bind_of_fails (monthWord_fails noWord)]

end Behind

theorem scan_isoDate {mark : Option Unit} {behind : List Char}
    (joined : opt (char 't') rest = some (mark, behind)) :
    scan (year.digits ++ '-' :: (month.digits ++ '-' :: (day.digits ++ rest))) =
      some (some (ofDate year month day), behind) := by
  rw [scan, forms, firstOf_of_fails (timestampForm_fails (year.stops (by decide) rfl))]
  refine firstOf_of_takes ?_
  rw [isoForm, digitsOf, bind_of_takes (year.exactly_takes rfl), bind_of_takes char_takes,
    digitsUpTo2, bind_of_takes (month.upTo_takes rfl (by decide) (.inl rfl)),
    bind_of_takes char_takes, bind_of_takes (day.upTo_takes rfl (by decide) (.inl rfl)),
    bind_of_takes joined, fullDate_runs, pure_apply]

theorem scan_iso (stops : Stops (· == 't') rest) :
    scan (year.digits ++ '-' :: (month.digits ++ '-' :: (day.digits ++ rest))) =
      some (some (ofDate year month day), rest) :=
  scan_isoDate year month day (opt_of_fails (char_fails stops))

theorem scan_slash :
    scan (year.digits ++ '/' :: (month.digits ++ '/' :: (day.digits ++ rest))) =
      some (some (ofDate year month day), rest) := by
  have takesYear {rest} : digitsOf 4 (year.digits ++ rest) = some (year.digits, rest) :=
    year.exactly_takes rfl
  have notIso : isoForm (year.digits ++ '/' :: (month.digits ++ '/' :: (day.digits ++ rest))) =
      none :=
    (bind_of_takes takesYear).trans (bind_of_fails (char_fails (stops_cons rfl)))
  rw [scan, forms, firstOf_of_fails (timestampForm_fails (year.stops (by decide) rfl)),
    firstOf_of_fails notIso]
  refine firstOf_of_takes ?_
  rw [slashForm, bind_of_takes takesYear, bind_of_takes char_takes,
    digitsUpTo2, bind_of_takes (month.upTo_takes rfl (by decide) (.inl rfl)),
    bind_of_takes char_takes, bind_of_takes (day.upTo_takes rfl (by decide) (.inl rfl)),
    fullDate_runs, pure_apply]

theorem yearEnd_takes (ends : Stops isWordChar rest) :
    yearEnd (year.digits ++ rest) = some (year.digits, rest) := by
  rw [yearEnd, digitsOf, bind_of_takes (year.exactly_takes rfl),
    bind_of_takes (wordEnd_takes ends), pure_apply]

theorem scan_american (ends : Stops isWordChar rest) :
    scan (month.digits ++ '/' :: (day.digits ++ '/' :: (year.digits ++ rest))) =
      some (some (ofDate year month day), rest) := by
  have noYear : digitsOf 4 (month.digits ++ '/' :: (day.digits ++ '/' :: (year.digits ++ rest))) =
      none :=
    month.exactly_fails rfl (by decide) (stops_cons rfl)
  rw [scan, forms, firstOf_of_fails (timestampForm_fails (month.stops (by decide) rfl)),
    firstOf_of_fails (isoForm_fails noYear), firstOf_of_fails (slashForm_fails noYear)]
  refine firstOf_of_takes ?_
  rw [americanForm, digitsUpTo2,
    bind_of_takes (month.upTo_takes rfl (by decide) (.inl rfl)), bind_of_takes char_takes,
    bind_of_takes (day.upTo_takes rfl (by decide) (.inl rfl)), bind_of_takes char_takes,
    bind_of_takes (firstOf_of_takes (yearEnd_takes year ends)), pure_apply]
  simp only [DigitRun.number?_eq, year.length_eq, expandYear, Option.bind_eq_bind, Option.bind_some,
    Option.pure_def, Nat.reduceEqDiff, ↓reduceIte, ofDate]

theorem scan_dayFirst (ends : Stops isWordChar rest) :
    scan (day.digits ++ '.' :: (month.digits ++ '.' :: (year.digits ++ rest))) =
      some (some (ofDate year month day), rest) := by
  have noYear : digitsOf 4 (day.digits ++ '.' :: (month.digits ++ '.' :: (year.digits ++ rest))) =
      none :=
    day.exactly_fails rfl (by decide) (stops_cons (by decide))
  have takesDay {rest} : digitsUpTo2 (day.digits ++ rest) = some (day.digits, rest) :=
    day.upTo_takes rfl (by decide) (.inl rfl)
  rw [scan, forms, firstOf_of_fails (timestampForm_fails (day.stops (by decide) rfl)),
    firstOf_of_fails (isoForm_fails noYear), firstOf_of_fails (slashForm_fails noYear),
    firstOf_of_fails (americanForm_fails takesDay (stops_cons rfl))]
  refine firstOf_of_takes ?_
  rw [dayFirstForm, bind_of_takes takesDay, oneOf, bind_of_takes (one_takes rfl), digitsUpTo2,
    bind_of_takes (month.upTo_takes rfl (by decide) (.inl rfl)),
    bind_of_takes (one_takes rfl), bind_of_takes (yearEnd_takes year ends), fullDate_runs,
    pure_apply]

def halfOfDay : Scan (Option Half) :=
  Scan.opt do
    let _ ← Scan.blanks
    halfMark

def halfText : Option Half → List Char
  | none => []
  | some .am => [' ', 'a', 'm']
  | some .pm => [' ', 'p', 'm']

theorem halfOfDay_halfText (half : Option Half) : halfOfDay (halfText half) = some (half, []) := by
  match half with
  | none | some .am | some .pm => rfl

theorem halfOfDay_absent {gap : List Char} (blank : ∀ c ∈ gap, isBlank c = true)
    (start : Stops isBlank text) (noMark : Stops ['a', 'p'].contains text) :
    halfOfDay (gap ++ text) = some (none, gap ++ text) := by
  have noHalf : halfMark text = none := bind_of_fails (one_fails noMark)
  exact opt_of_fails ((bind_of_takes (run_takes blank start)).trans noHalf)

theorem halfOfDay_digits :
    halfOfDay (' ' :: (year.digits ++ rest)) = some (none, ' ' :: (year.digits ++ rest)) :=
  halfOfDay_absent (List.forall_mem_singleton.mpr rfl) (year.stops (by decide) rfl)
    (year.stops (by decide) rfl)

variable (hour : DigitRun n) (minute second : DigitRun 2) {half : Option Half} {behind : List Char}

theorem secondPart_takes (noFraction : Stops ['.', ','].contains rest) :
    secondPart (':' :: (second.digits ++ rest)) = some (second.digits, rest) := by
  rw [secondPart, bind_of_takes char_takes, digitsOf,
    bind_of_takes (second.exactly_takes rfl), oneOf,
    bind_of_takes (opt_of_fails (bind_of_fails (one_fails noFraction))), pure_apply]

theorem secondPart_fraction (fraction : DigitRun n) (positive : 0 < n)
    (stops : Stops isDecimalDigit rest) :
    secondPart (':' :: (second.digits ++ '.' :: (fraction.digits ++ rest))) =
      some (second.digits, rest) := by
  have takes : digits (fraction.digits ++ rest) = some (fraction.digits, rest) :=
    some1_takes (fraction.digits_ne_nil positive) (fraction.forall_mem rfl) stops
  have dropped : (oneOf ['.', ','] >>= fun _ => digits) ('.' :: (fraction.digits ++ rest)) =
      some (fraction.digits, rest) :=
    (bind_of_takes (one_takes rfl)).trans takes
  rw [secondPart, bind_of_takes char_takes, digitsOf, bind_of_takes (second.exactly_takes rfl),
    bind_of_takes (opt_of_takes dropped), pure_apply]

theorem scan_clock (positive : 0 < n) (short : n ≤ 2) {after : List Char}
    (seconds : secondPart (':' :: (second.digits ++ rest)) = some (second.digits, after))
    (marked : halfOfDay after = some (half, behind)) :
    scan (hour.digits ++ ':' :: (minute.digits ++ ':' :: (second.digits ++ rest))) =
      some (some (ofClock hour minute second half), behind) := by
  have noYear {rest} : digitsOf 4 (hour.digits ++ ':' :: rest) = none :=
    hour.exactly_fails rfl (by omega) (stops_cons (by decide))
  have takesHour {rest} :
      digitsUpTo2 (hour.digits ++ ':' :: rest) = some (hour.digits, ':' :: rest) :=
    hour.upTo_takes rfl positive (by
      rcases Nat.lt_or_eq_of_le short with one | two
      · exact .inr ⟨one, stops_cons (by decide)⟩
      · exact .inl two)
  have noWord {rest} : monthWord (hour.digits ++ ':' :: rest) = none :=
    monthWord_fails (hour.stops positive rfl)
  have notDayMonth {rest} : dayMonthForm (hour.digits ++ ':' :: rest) = none :=
    dayMonthForm_fails takesHour (stops_cons rfl) (List.nil_append _).symm
      (fun c member => nomatch member) (stops_cons rfl) (stops_cons rfl)
  rw [scan, forms, firstOf_of_fails (timestampForm_fails (hour.stops positive rfl)),
    firstOf_of_fails (isoForm_fails noYear), firstOf_of_fails (slashForm_fails noYear),
    firstOf_of_fails (americanForm_fails takesHour (stops_cons rfl)),
    firstOf_of_fails (dayFirstForm_fails takesHour (stops_cons rfl)),
    firstOf_of_fails (monthYearForm_fails noWord), firstOf_of_fails notDayMonth,
    firstOf_of_fails (monthDayForm_fails noWord)]
  rw [halfOfDay] at marked
  refine firstOf_of_takes ?_
  rw [timeForm, bind_of_takes takesHour, bind_of_takes char_takes, digitsOf,
    bind_of_takes (minute.exactly_takes rfl),
    bind_of_takes (opt_of_takes seconds), bind_of_takes marked,
    pure_apply]
  simp only [DigitRun.number?_eq, Option.bind_eq_bind, Option.bind_some, Option.pure_def,
    Option.getD_some, ofClock]

theorem scan_time (positive : 0 < n) (short : n ≤ 2) (noFraction : Stops ['.', ','].contains rest)
    (marked : halfOfDay rest = some (half, behind)) :
    scan (hour.digits ++ ':' :: (minute.digits ++ ':' :: (second.digits ++ rest))) =
      some (some (ofClock hour minute second half), behind) :=
  scan_clock hour minute second positive short (secondPart_takes second noFraction) marked

theorem number64?_run (run : DigitRun n) (negative : Bool) {seconds : Int}
    (value : (if negative then -(run.value : Int) else run.value) = seconds)
    (low : -2 ^ 63 ≤ seconds) (high : seconds < 2 ^ 63) :
    number64? negative run.digits = some seconds := by
  simp only [number64?, run.number?_eq, Option.bind_eq_bind, Option.bind_some, value]
  rw [if_pos]
  rw [Bool.and_eq_true, decide_eq_true_eq, decide_eq_true_eq]
  exact ⟨low, high⟩

theorem number64?_of_large (run : DigitRun n) (large : 2 ^ 63 ≤ run.value) :
    number64? false run.digits = none := by
  have beyond : ¬ (run.value : Int) < 2 ^ 63 := by omega
  rw [number64?, run.number?_eq, Option.bind_eq_bind, Option.bind_some]
  dsimp only
  rw [if_neg]
  rw [Bool.and_eq_true, decide_eq_true_eq, decide_eq_true_eq]
  exact fun bounds => beyond bounds.2

theorem scan_timestamp {seconds : Int} (low : -2 ^ 63 ≤ seconds) (high : seconds < 2 ^ 63) :
    scan ('@' :: Numeral.ofInt seconds) = some (some (.timestamp seconds), []) := by
  let run := DigitRun.ofNumeral seconds.natAbs
  have filled := DigitRun.length_numeral_pos seconds.natAbs
  have takes : digits run.digits = some (run.digits, []) := by
    have takes : digits (run.digits ++ []) = some (run.digits, []) :=
      some1_takes (run.digits_ne_nil filled) (run.forall_mem rfl) stops_nil
    rwa [List.append_nil] at takes
  have value : run.value = seconds.natAbs := DigitRun.value_ofNumeral _
  have written :
      Numeral.ofInt seconds = if seconds < 0 then '-' :: run.digits else run.digits := rfl
  refine firstOf_of_takes ?_
  rw [timestampForm, bind_of_takes char_takes, written]
  split
  · next negative =>
    have same : -(run.value : Int) = seconds := by omega
    rw [bind_of_takes (opt_of_takes char_takes), bind_of_takes takes, pure_apply, Option.isSome_some,
      number64?_run run true same low high, Option.map_some]
  · next positive =>
    have same : (run.value : Int) = seconds := by omega
    have unsigned := char_fails (run.digits_stops (p := (· == '-')) rfl)
    rw [bind_of_takes (opt_of_fails unsigned), bind_of_takes takes, pure_apply, Option.isSome_none,
      number64?_run run false same low high, Option.map_some]

def signOf (negative : Bool) : Char :=
  if negative then '-' else '+'

theorem scan_signed (negative : Bool) (rest : List Char) :
    scan (signOf negative :: rest) = firstOf (forms.drop 10) (signOf negative :: rest) := by
  cases negative with
  | false | true => rfl

def unitWords : List String :=
  ["sec", "secs", "second", "seconds", "min", "mins", "minute", "minutes", "hour", "hours", "day",
    "days", "week", "weeks", "fortnight", "fortnights", "month", "months", "year", "years"]

theorem mem_unitWords {word : String} {unit : TimeUnit} (named : TimeUnit.ofWord? word = some unit) :
    word ∈ unitWords := by
  unfold TimeUnit.ofWord? at named
  split at named
  case h_21 => cases named
  all_goals decide

theorem unitWord_lower {word : List Char} {unit : TimeUnit}
    (named : TimeUnit.ofWord? (String.ofList word) = some unit) :
    word ≠ [] ∧ ∀ c ∈ word, c.isLower = true := by
  have each : unitWords.all (fun word => word.toList ≠ [] && word.toList.all Char.isLower) = true := by
    decide
  have lower := List.all_eq_true.mp each _ (mem_unitWords named)
  rw [String.toList_ofList, Bool.and_eq_true, decide_eq_true_eq, List.all_eq_true] at lower
  exact lower

theorem scan_signedNumber (negative : Bool) (count : DigitRun n) (filled : 0 < n) {word : List Char}
    {unit : TimeUnit} (named : TimeUnit.ofWord? (String.ofList word) = some unit)
    (ends : Stops isWordChar rest) :
    scan (signOf negative :: (count.digits ++ ' ' :: (word ++ rest))) =
      some ((number64? false count.digits).map fun amount =>
        .shift unit (if negative then -amount else amount), rest) := by
  obtain ⟨wordFilled, lower⟩ := unitWord_lower named
  have notBlank : Stops isBlank (word ++ rest) :=
    stops_append wordFilled fun c member => isBlank_of_isLower (lower c member)
  have sign {text} : opt (oneOf ['+', '-']) (signOf negative :: text) =
      some (some (signOf negative), text) := by
    cases negative with
    | false | true => rfl
  have amount {text} : digits (count.digits ++ ' ' :: text) = some (count.digits, ' ' :: text) :=
    some1_takes (count.digits_ne_nil filled) (count.forall_mem rfl) (stops_cons (by decide))
  have gap : blanks (' ' :: (word ++ rest)) = some ([' '], word ++ rest) :=
    run_takes (List.forall_mem_singleton.mpr (by decide)) notBlank
  rw [scan_signed]
  refine firstOf_of_takes ?_
  rw [shiftForm, bind_of_takes sign, bind_of_takes (blanks_stops (count.stops filled rfl)),
    bind_of_takes amount, bind_of_takes gap, bind_of_takes (word_takes wordFilled lower ends),
    named, bind_of_takes rfl, pure_apply]
  cases negative with
  | false | true => rfl

theorem scan_shift (negative : Bool) (count : DigitRun n) (filled : 0 < n)
    (small : count.value < 2 ^ 63) {word : List Char} {unit : TimeUnit}
    (named : TimeUnit.ofWord? (String.ofList word) = some unit) (ends : Stops isWordChar rest) :
    scan (signOf negative :: (count.digits ++ ' ' :: (word ++ rest))) =
      some (some (.shift unit (if negative then -count.value else count.value)), rest) := by
  have value : number64? false count.digits = some (count.value : Int) :=
    number64?_run count false rfl (by omega) (by omega)
  rw [scan_signedNumber negative count filled named ends, value, Option.map_some]

/-- The forms between those of a shift and of an offset. -/
def wordForms : List Form :=
  [agoForm, keywordForm, monthEdgeForm, directedForm, zoneForm]

theorem wordForms_fail (noLetter : Stops Char.isLower text) :
    ∀ form ∈ wordForms, form text = none := by
  simp only [wordForms, List.forall_mem_cons]
  exact ⟨bind_of_fails (word_fails noLetter), bind_of_fails (word_fails noLetter),
    bind_of_fails (letters_fails noLetter), bind_of_fails (letters_fails noLetter),
    bind_of_fails (word_fails noLetter), fun form member => (List.not_mem_nil member).elim⟩

theorem lateForms_fail (noLetter : Stops Char.isLower text) (noSign : Stops ['+', '-'].contains text) :
    firstOf (forms.drop 11) text = none := by
  have noOffset : offsetForm text = none := bind_of_fails (one_fails noSign)
  have noWeekday : weekdayForm text = none := bind_of_fails (word_fails noLetter)
  change firstOf (wordForms ++ [offsetForm, weekdayForm]) text = none
  rw [firstOf_append_of_fails (wordForms_fail noLetter), firstOf_of_fails noOffset,
    firstOf_of_fails noWeekday]
  rfl

/-- The offset that two runs of digits behind a sign give. -/
def ofZone (west : Bool) (hours minutes : DigitRun 2) : Int :=
  let seconds : Int := hours.value * 3600 + minutes.value * 60
  if west then -seconds else seconds

def zoneText (west : Bool) (hours minutes : DigitRun 2) : List Char :=
  signOf west :: (hours.digits ++ ':' :: minutes.digits)

@[simp] theorem zoneText_map_toLower (west : Bool) (hours minutes : DigitRun 2) :
    (zoneText west hours minutes).map Char.toLower = zoneText west hours minutes := by
  simp only [zoneText, List.map_cons, List.map_append, DigitRun.map_toLower]
  cases west with
  | false | true => rfl

theorem scan_zoneText (west : Bool) (hours minutes : DigitRun 2) :
    scan (zoneText west hours minutes ++ rest) =
      some (some (.offset (ofZone west hours minutes)), rest) := by
  have sign {text} : oneOf ['+', '-'] (signOf west :: text) = some (signOf west, text) := by
    cases west with
    | false | true => rfl
  have noLetter {text} : Stops Char.isLower (signOf west :: text) := by
    cases west with
    | false | true => exact stops_cons rfl
  have amount {text} : digits (hours.digits ++ ':' :: text) = some (hours.digits, ':' :: text) :=
    some1_takes (hours.digits_ne_nil (by decide)) (hours.forall_mem rfl) (stops_cons (by decide))
  have notShift {text} : shiftForm (signOf west :: (hours.digits ++ ':' :: text)) = none := by
    rw [shiftForm, bind_of_takes (opt_of_takes sign),
      bind_of_takes (blanks_stops (hours.stops (by decide) rfl)), bind_of_takes amount,
      bind_of_takes (blanks_stops (stops_cons rfl)), bind_of_fails (word_fails (stops_cons rfl))]
  have minutePart : (opt (char ':') >>= fun _ => digitsOf 2) (':' :: (minutes.digits ++ rest)) =
      some (minutes.digits, rest) :=
    (bind_of_takes (opt_of_takes char_takes)).trans (minutes.exactly_takes rfl)
  rw [zoneText, List.cons_append, List.append_assoc, List.cons_append, scan_signed]
  change firstOf (shiftForm :: (wordForms ++ [offsetForm, weekdayForm])) _ = _
  rw [firstOf_of_fails notShift, firstOf_append_of_fails (wordForms_fail noLetter)]
  refine firstOf_of_takes ?_
  rw [offsetForm, bind_of_takes sign, digitsUpTo2,
    bind_of_takes (hours.upTo_takes rfl (by decide) (.inl rfl)),
    bind_of_takes (opt_of_takes minutePart), pure_apply]
  simp only [DigitRun.number?_eq, Option.bind_eq_bind, Option.bind_some, Option.pure_def,
    Option.getD_some, ofZone]
  cases west with
  | false | true => rfl

end Token

end ConfigExpr.DatePhrase
