import ConfigExpr.Proofs.DatePhrase.DayPhrases
import ConfigExpr.Proofs.DatePhrase.MonthSteps
import ConfigExpr.Proofs.DatePhrase.NumberedWords
import ConfigExpr.Proofs.Standard.Dates

/-!
Dates that are told from the date of the base. A number of months or years leads to another month and
keeps the day of the month and the time of day. A phrase for a day such as `tomorrow` leads to the
midnight of that day. A number with a word behind it leads nowhere unless the word is one of a few.
-/
namespace ConfigExpr.Standard
open Calendar DatePhrase

section Readings
variable {base : Int64} {offset shown : Int} {denotes : Int → Option Int}

theorem phraseResult_of_denoted (supported : isSupportedInstant base.toInt = true)
    (supportedHere : isSupportedInstant (base.toInt + offset) = true)
    (there : denotes (base.toInt + offset) = some shown)
    (supportedShown : isSupportedInstant shown = true) :
    ∃ n : Int64, phraseResult (readAt base.toInt offset denotes) = .ok (.integer n) ∧
      n.toInt + offset = shown := by
  have base64 := bounds_of_isSupportedInstant supported
  have here64 := bounds_of_isSupportedInstant supportedHere
  have shown64 := bounds_of_isSupportedInstant supportedShown
  have whole : (Int64.ofInt (shown - offset)).toInt = shown - offset :=
    Int64.toInt_ofInt_of_le (by omega) (by omega)
  refine ⟨Int64.ofInt (shown - offset), ?_, by omega⟩
  rw [readAt_of_supported supported supportedHere, there]
  rfl

theorem phraseResult_of_nothing
    (nothing : isSupportedInstant base.toInt = true →
      isSupportedInstant (base.toInt + offset) = true → denotes (base.toInt + offset) = none) :
    phraseResult (readAt base.toInt offset denotes) =
      if isSupportedInstant base.toInt && !isSupportedInstant (base.toInt + offset) then
        .error noLocalTime
      else .ok (.bool false) := by
  cases supported : isSupportedInstant base.toInt with
  | false =>
    rw [readAt_of_unsupported supported]
    rfl
  | true =>
    cases supportedHere : isSupportedInstant (base.toInt + offset) with
    | false =>
      rw [readAt_of_beyond supported supportedHere]
      rfl
    | true =>
      rw [readAt_of_supported supported supportedHere, nothing supported supportedHere]
      rfl

theorem phraseResult_eq_false {result : Except NoInstant Int} :
    phraseResult result = .ok (.bool false) ↔ result = .error .notUnderstood := by
  cases result with
  | ok instant => simp [phraseResult]
  | error reason => cases reason <;> simp [phraseResult]

theorem readAt_of_phraseResult {n : Int64} (denoted : ∀ here shown, denotes here = some shown →
      isSupportedInstant shown = true)
    (called : phraseResult (readAt base.toInt offset denotes) = .ok (.integer n)) :
    isSupportedInstant base.toInt = true ∧ isSupportedInstant (base.toInt + offset) = true ∧
      denotes (base.toInt + offset) = some (n.toInt + offset) := by
  cases read : readAt base.toInt offset denotes with
  | error reason =>
    rw [read] at called
    cases reason <;> cases called
  | ok instant =>
    obtain ⟨supported, supportedHere, shown, there, rfl⟩ := readAt_eq_ok.mp read
    obtain ⟨m, same, value⟩ :=
      phraseResult_of_denoted supported supportedHere there (denoted _ _ there)
    obtain rfl := Value.integer.inj (Except.ok.inj (same.symm.trans called))
    exact ⟨supported, supportedHere, there.trans (congrArg some value.symm)⟩

end Readings

section MonthShifts
variable {base : Int64} {offset : Int}

theorem months_call (months : SignedCount .month) (base : Int64) (offset now : Int) :
    instantOfPhrase.call [.string (String.ofList months.text), .integer base] ⟨offset, now⟩ =
      phraseResult (if months.amount.natAbs < 2 ^ 63 then
        readAt base.toInt offset (monthShift? months.amount) else .error .notUnderstood) := by
  rw [instantOfPhrase_call, months.parse_months]

theorem months_call_of_local
    (known : isSupportedInstant base.toInt = true →
      isSupportedInstant (base.toInt + offset) = true) (months : SignedCount .month) (now : Int) :
    instantOfPhrase.call [.string (String.ofList months.text), .integer base] ⟨offset, now⟩ =
      phraseResult (readAt base.toInt offset (monthShift? months.amount)) := by
  rw [months_call, readAt_monthShift? (Nat.le_refl _) known]

theorem years_call_of_local
    (known : isSupportedInstant base.toInt = true →
      isSupportedInstant (base.toInt + offset) = true) (years : SignedCount .year) (now : Int) :
    instantOfPhrase.call [.string (String.ofList years.text), .integer base] ⟨offset, now⟩ =
      phraseResult (readAt base.toInt offset (monthShift? (12 * years.amount))) := by
  have least : years.amount.natAbs ≤ (12 * years.amount).natAbs := by omega
  rw [instantOfPhrase_call, years.parse_years, readAt_monthShift? least known]

theorem months_call_of_nothing (step : SignedCount .month) (now : Int)
    (nothing : isSupportedInstant base.toInt = true →
      isSupportedInstant (base.toInt + offset) = true →
        monthShift? step.amount (base.toInt + offset) = none) :
    instantOfPhrase.call [.string (String.ofList step.text), .integer base] ⟨offset, now⟩ =
      if isSupportedInstant base.toInt && !isSupportedInstant (base.toInt + offset) &&
          decide (step.amount.natAbs < 2 ^ 63) then .error noLocalTime
      else .ok (.bool false) := by
  rw [months_call]
  split
  next small =>
    simp only [small, decide_true, Bool.and_true]
    exact phraseResult_of_nothing nothing
  next great =>
    simp only [great, decide_false, Bool.and_false]
    rfl

theorem months_call_twice (early : dayOfMonth (LocalTime.day ⟨base.toInt, offset⟩) ≤ 28)
    {first second both : SignedCount .month} (sum : both.amount = first.amount + second.amount)
    {middle : Int64} {now : Int}
    (there : instantOfPhrase.call [.string (String.ofList first.text), .integer base] ⟨offset, now⟩ =
      .ok (.integer middle)) :
    instantOfPhrase.call [.string (String.ofList second.text), .integer middle] ⟨offset, now⟩ =
      if isSupportedInstant middle.toInt then
        instantOfPhrase.call [.string (String.ofList both.text), .integer base] ⟨offset, now⟩
      else .ok (.bool false) := by
  rw [months_call] at there
  split at there
  next =>
    obtain ⟨supported, supportedHere, shifted⟩ :=
      readAt_of_phraseResult (fun _ _ => isSupportedInstant_of_monthShift?) there
    have supportedThere := isSupportedInstant_of_monthShift? shifted
    have twice : monthShift? second.amount (middle.toInt + offset) =
        monthShift? (first.amount + second.amount) (base.toInt + offset) :=
      monthShift?_monthShift? early shifted second.amount
    rw [months_call_of_local fun _ => supportedThere, months_call_of_local fun _ => supportedHere]
    split
    next supportedMiddle =>
      rw [readAt_of_supported supportedMiddle supportedThere,
        readAt_of_supported supported supportedHere, twice, sum]
    next unsupported =>
      rw [readAt_of_unsupported (Bool.not_eq_true _ ▸ unsupported)]
      rfl
  next => cases there

end MonthShifts

/-- A number of months, ahead or back, leads to the day of the month and the time of day of the base
in the month so many months away, if the base has a local time. There a year is twelve months, and
from a day that every month has two shifts are one. -/
theorem month_shifts_keep_day_and_time (base : Int64) (offset now : Int) :
    let here : LocalTime := ⟨base.toInt, offset⟩
    let shift (text : List Char) (base : Int64) :=
      instantOfPhrase.call [.string (String.ofList text), .integer base] ⟨offset, now⟩
    (∀ step : SignedCount .month,
      let target := monthIndex here.day + step.amount
      if isSupportedInstant base.toInt && isSupportedInstant here.seconds &&
          isSupportedYear (target / 12) then
        ∃ n : Int64, shift step.text base = .ok (.integer n) ∧
          n.toInt + offset = (monthStart target + (dayOfMonth here.day - 1)) * 86400 +
            secondOfDay here.seconds
      else shift step.text base =
        if isSupportedInstant base.toInt && !isSupportedInstant here.seconds &&
            decide (step.amount.natAbs < 2 ^ 63) then .error noLocalTime
        else .ok (.bool false)) ∧
    ((isSupportedInstant base.toInt = true → isSupportedInstant here.seconds = true) →
      ∀ (years : SignedCount .year) (months : SignedCount .month),
        months.amount = 12 * years.amount → shift years.text base = shift months.text base) ∧
    (dayOfMonth here.day ≤ 28 → ∀ first second both : SignedCount .month,
      both.amount = first.amount + second.amount →
      ∀ middle : Int64, shift first.text base = .ok (.integer middle) →
        shift second.text middle =
          if isSupportedInstant middle.toInt then shift both.text base else .ok (.bool false)) := by
  intro here shift
  refine ⟨fun step => ?_, fun known years months same => ?_,
    fun early first second both sum middle there => months_call_twice early sum there⟩
  · intro target
    split
    next inRange =>
      rw [Bool.and_eq_true, Bool.and_eq_true] at inRange
      obtain ⟨⟨supported, supportedHere⟩, year⟩ := inRange
      have there : monthShift? step.amount here.seconds = some
          (monthsLater here.day step.amount * 86400 + secondOfDay here.seconds) := if_pos year
      obtain ⟨n, result, value⟩ := phraseResult_of_denoted supported supportedHere there
        (isSupportedInstant_of_monthShift? there)
      have called := months_call_of_local (fun _ => supportedHere) step now
      exact ⟨n, called.trans result, value⟩
    next missing =>
      refine months_call_of_nothing step now fun supported supportedHere => if_neg fun year => ?_
      exact missing (Bool.and_eq_true_iff.mpr
        ⟨Bool.and_eq_true_iff.mpr ⟨supported, supportedHere⟩, year⟩)
  · have byYears := years_call_of_local known years now
    have byMonths := months_call_of_local known months now
    rw [same] at byMonths
    exact byYears.trans byMonths.symm

theorem month_shifts_keep_day_and_time_rollover :
    let months (back : Bool) (count : Char) (digit : Text.isAsciiDigit count = true) :
        SignedCount .month :=
      { back := back, digits := [count], ascii := List.forall_mem_singleton.mpr digit
        filled := List.cons_ne_nil _ _, word := ['M', 'o', 'n', 't', 'h', 's'], named := by decide }
    let year : SignedCount .year :=
      { back := false, digits := ['1'], ascii := List.all_eq_true.mp rfl, filled := by decide
        word := ['y', 'e', 'a', 'r'], named := by decide }
    let twelve : SignedCount .month :=
      { back := false, digits := ['1', '2'], ascii := List.all_eq_true.mp rfl, filled := by decide
        word := ['m', 'o', 'n', 't', 'h', 's'], named := by decide }
    let shift (text : String) (base : Int64) :=
      instantOfPhrase.call [.string text, .integer base] ⟨3600, 0⟩
    String.ofList (months false '1' rfl).text = "+1 Months" ∧
    (∃ n : Int64, shift "+1 Months" 1422662400 = .ok (.integer n) ∧
      n.toInt + 3600 = dayNumber 2015 3 3 * 86400 + 3600) ∧
    String.ofList year.text = "+1 year" ∧ String.ofList twelve.text = "+12 months" ∧
    shift "+1 year" 1418031515 = shift "+12 months" 1418031515 ∧
    String.ofList (months true '5' rfl).text = "-5 Months" ∧
    ∃ middle : Int64, shift "+3 Months" 1418031515 = .ok (.integer middle) ∧
      shift "-5 Months" middle = shift "-2 Months" 1418031515 := by
  intro months year twelve shift
  obtain ⟨fromJanuary, -, -⟩ := month_shifts_keep_day_and_time 1422662400 3600 0
  obtain ⟨fromDecember, byYears, twice⟩ := month_shifts_keep_day_and_time 1418031515 3600 0
  have one := fromJanuary (months false '1' rfl)
  have three := fromDecember (months false '3' rfl)
  rw [if_pos (by decide)] at one three
  obtain ⟨n, called, there⟩ := one
  obtain ⟨middle, calledMiddle, thereMiddle⟩ := three
  have supported : isSupportedInstant middle.toInt = true := by
    have march : middle.toInt + 3600 = 1425811115 := thereMiddle.trans (by decide)
    have value : middle.toInt = 1425807515 := by omega
    rw [value]
    decide
  have back := twice (by decide) (months false '3' rfl) (months true '5' rfl)
    (months true '2' rfl) (by decide) middle calledMiddle
  rw [if_pos supported] at back
  exact ⟨by decide, ⟨n, called, there.trans (by decide)⟩, by decide, by decide,
    byYears (by decide) year twelve (by decide), by decide, middle, calledMiddle, back⟩

/-- A phrase for a day gives the local midnight of the day that it denotes on the local date of the
base, if there is one. -/
theorem day_phrases_give_midnights (phrase : DayPhrase) {text : String}
    (spelled : text.toList.map Char.toLower = phrase.text) (base : Int64) (offset now : Int) :
    let here : LocalTime := ⟨base.toInt, offset⟩
    ∃ day, phrase.Denotes here.day day ∧
      if isSupportedInstant base.toInt && isSupportedInstant here.seconds && isSupported day then
        ∃ n : Int64, instantOfPhrase.call [.string text, .integer base] ⟨offset, now⟩ =
            .ok (.integer n) ∧
          n.toInt + offset = day * 86400
      else instantOfPhrase.call [.string text, .integer base] ⟨offset, now⟩ =
        if isSupportedInstant base.toInt && !isSupportedInstant here.seconds then
          .error noLocalTime
        else .ok (.bool false) := by
  intro here
  let day := here.day + phrase.distance here.day
  refine ⟨day, phrase.denotes_distance here.day, ?_⟩
  have means := phrase.parse_eq spelled base.toInt offset
  rw [String.ofList_toList] at means
  rw [instantOfPhrase_call, means]
  split
  next supported =>
    rw [Bool.and_eq_true, Bool.and_eq_true] at supported
    obtain ⟨⟨supportedBase, supportedHere⟩, midnight⟩ := supported
    have there : midnight? day = some (day * 86400) := by
      rw [midnight?, supported?, if_pos midnight, Option.map_some]
    rw [← dayOf_add_clock day (Nat.zero_lt_succ 86399), Int.natCast_zero, Int.add_zero] at midnight
    exact phraseResult_of_denoted supportedBase supportedHere there midnight
  next missing =>
    refine phraseResult_of_nothing fun supportedBase supportedHere => ?_
    have unsupported : ¬ isSupported day = true := fun midnight =>
      missing (Bool.and_eq_true_iff.mpr
        ⟨Bool.and_eq_true_iff.mpr ⟨supportedBase, supportedHere⟩, midnight⟩)
    change midnight? day = none
    rw [midnight?, supported?, if_neg unsupported, Option.map_none]

theorem day_phrases_give_midnights_previous_monday :
    let monday : WeekdayWord := ⟨"mon", 0, by decide⟩
    "Previous Mon".toList.map Char.toLower = (DayPhrase.previous monday).text ∧
    (LocalTime.day ⟨(1417995000 : Int64).toInt, 3600⟩) = dayNumber 2014 12 8 ∧
    ∃ n : Int64, instantOfPhrase.call [.string "Previous Mon", .integer 1417995000] ⟨3600, 0⟩ =
        .ok (.integer n) ∧
      n.toInt + 3600 = dayNumber 2014 12 1 * 86400 := by
  intro monday
  have spelled : "Previous Mon".toList.map Char.toLower = (DayPhrase.previous monday).text := by
    decide
  have today : LocalTime.day ⟨(1417995000 : Int64).toInt, 3600⟩ = dayNumber 2014 12 8 := by decide
  obtain ⟨day, ⟨⟨before, falls⟩, latest⟩, result⟩ :=
    day_phrases_give_midnights (.previous monday) spelled 1417995000 3600 0
  have aWeekAgo : day = dayNumber 2014 12 1 := by
    have notEarlier : dayNumber 2014 12 1 ≤ day := latest ⟨by decide, by decide⟩
    have value : dayNumber 2014 12 1 = 16405 := by decide
    change day < dayNumber 2014 12 8 at before
    change weekday day = 0 at falls
    have next : dayNumber 2014 12 8 = 16412 := by decide
    rw [weekday] at falls
    omega
  subst aWeekAgo
  rw [if_pos (by decide)] at result
  exact ⟨spelled, today, result⟩

/-- A day of the month with a word behind it means nothing, whatever the base and the offset, exactly
when the word does not start like a month, is no word for a unit, and is not `am` or `pm`, alone or up
to twelve with a word right behind it that is read alone. -/
theorem numbers_before_other_words_mean_nothing {day : Nat} (from1 : 1 ≤ day) (to31 : day ≤ 31)
    {word : List Char} (letters : ∀ c ∈ word, c.isAlpha = true) (filled : word ≠ []) :
    (∀ (base : Int64) (context : Context),
      instantOfPhrase.call
        [.string (String.ofList (Numeral.ofNat day ++ ' ' :: word)), .integer base] context =
          .ok (.bool false)) ↔
      ¬ MayFollow day (word.map Char.toLower) := by
  let count := DigitRun.ofNumeral day
  have value : count.value = day := DigitRun.value_ofNumeral day
  have means (base offset : Int) :
      parse (String.ofList (Numeral.ofNat day ++ ' ' :: word)) base offset =
        (understood (numberedTokens? day (word.map Char.toLower)) >>= fun tokens =>
          understood (Reading.ofTokens? tokens) >>= fun reading => reading.resolve base offset) := by
    have short : (Numeral.ofNat day).length ≤ 2 := Numeral.length_ofNat_le (by decide) (by omega)
    have means := parse_numbered count (DigitRun.length_numeral_pos day) short
      (LowerWord.ofLetters word letters filled) rfl base offset
    rwa [value] at means
  constructor
  · intro nothing follows
    have read : (understood (numberedTokens? day (word.map Char.toLower)) >>=
        sinceEpoch).isOk = true := exists_instant_of_mayFollow from1 to31 follows
    have atEpoch := phraseResult_eq_false.mp ((instantOfPhrase_call _ 0 ⟨0, 0⟩).symm.trans
      (nothing 0 ⟨0, 0⟩))
    rw [means] at atEpoch
    change understood _ >>= sinceEpoch = _ at atEpoch
    rw [atEpoch] at read
    cases read
  · intro other base context
    rw [instantOfPhrase_call, phraseResult_eq_false, means]
    cases written : numberedTokens? day (word.map Char.toLower) with
    | none => rfl
    | some tokens =>
      cases read : Reading.ofTokens? tokens with
      | none => rw [understood, Outcome.ok_bind, read]; rfl
      | some reading => exact (other (mayFollow_of_read written read)).elim

theorem numbers_before_other_words_mean_nothing_blursday :
    (∀ c ∈ "Blursday".toList, c.isAlpha = true) ∧
    ¬ MayFollow 5 ("Blursday".toList.map Char.toLower) ∧
    instantOfPhrase.call [.string "5 Blursday", .integer 1418031515] ⟨3600, 0⟩ = .ok (.bool false) := by
  have letters : ∀ c ∈ "Blursday".toList, c.isAlpha = true := List.all_eq_true.mp (by decide)
  have other : ¬ MayFollow 5 ("Blursday".toList.map Char.toLower) := by
    rintro (month | unit | ⟨-, half⟩)
    · revert month
      decide
    · revert unit
      decide
    · revert half
      decide
  have nothing := (numbers_before_other_words_mean_nothing (by decide) (by decide) letters
    (by decide)).mpr other 1418031515 ⟨3600, 0⟩
  exact ⟨letters, other, nothing⟩

/-- A word that starts like a month is read as that month: this is the fifth of March. -/
theorem five_marble_is_a_date :
    let months := ["january", "february", "march", "april", "may", "june", "july", "august",
      "september", "october", "november", "december", "sept"] ++ monthAbbreviations
    "marble" ∉ months ++ Token.unitWords ++ ["am", "pm"] ∧
    instantOfPhrase.call [.string "5 marble", .integer 1418031515] ⟨0, 0⟩ =
      .ok (.integer (Int64.ofInt (dayNumber 2014 3 5 * 86400))) := by
  intro months
  have denotes : parse "5 marble" (1418031515 : Int64).toInt 0 =
      .ok (dayNumber 2014 3 5 * 86400) := by decide
  refine ⟨by decide, ?_⟩
  rw [instantOfPhrase_call, denotes]
  rfl

end ConfigExpr.Standard
