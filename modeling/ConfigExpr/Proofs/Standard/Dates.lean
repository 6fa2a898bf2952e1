import ConfigExpr.Proofs.Calendar.Civil
import ConfigExpr.Proofs.Calendar.Formats
import ConfigExpr.Proofs.DatePhrase.IsoDates
import ConfigExpr.Proofs.DatePhrase.Resolution
import ConfigExpr.Proofs.DatePhrase.RoundTrip
import ConfigExpr.Standard.DateFunctions

/-!
The functions on dates together. Dates at an offset are dates in UTC, shifted: a phrase that gives no
offset and no instant is read as in UTC from the local time of its base, and a format that shows no
offset shows the local time. And a date written in a format that shows all of it is read back.
-/
namespace ConfigExpr.Standard
open Calendar DatePhrase

theorem date_call (pattern : String) (instant : Int64) (context : Context) :
    date.call [.string pattern, .integer instant] context =
      if isSupportedInstant instant.toInt then
        .ok (.string (DateFormat.format pattern ⟨instant.toInt, context.offset⟩))
      else .error (.failed "date" (outOfRange instant.toInt)) := rfl

theorem instantOfPhrase_call (text : String) (base : Int64) (context : Context) :
    instantOfPhrase.call [.string text, .integer base] context =
      phraseResult (parse text base.toInt context.offset) := rfl

theorem instantOfPhrase_shift {text : String} {base here : Int64} {offset : Int}
    (phrase : IsLocalPhrase text) (shifted : here.toInt = base.toInt + offset)
    (edges : isSupportedInstant base.toInt = isSupportedInstant here.toInt) (now : Int) :
    let inZone := instantOfPhrase.call [.string text, .integer base] ⟨offset, now⟩
    let inUtc := instantOfPhrase.call [.string text, .integer here] ⟨0, now⟩
    (inZone = .ok (.bool false) ∧ inUtc = .ok (.bool false)) ∨
      ∃ n m : Int64, inZone = .ok (.integer n) ∧ inUtc = .ok (.integer m) ∧
        n.toInt = m.toInt - offset := by
  rw [shifted] at edges
  simp only [instantOfPhrase_call, shifted, phrase.parse_shift edges]
  obtain nothing | ⟨shown, read, supportedHere, supportedShown⟩ :=
    phrase.parse_utc (base.toInt + offset)
  · rw [nothing]
    exact .inl ⟨rfl, rfl⟩
  · rw [read]
    have base64 := bounds_of_isSupportedInstant (edges.trans supportedHere)
    have here64 := bounds_of_isSupportedInstant supportedHere
    have shown64 := bounds_of_isSupportedInstant supportedShown
    have inUtc : (Int64.ofInt shown).toInt = shown :=
      Int64.toInt_ofInt_of_le (by omega) (by omega)
    have inZone : (Int64.ofInt (shown - offset)).toInt = shown - offset :=
      Int64.toInt_ofInt_of_le (by omega) (by omega)
    exact .inr ⟨_, _, rfl, rfl, by rw [inUtc, inZone]⟩

theorem date_shift {pattern : String} {instant here : Int64} {offset : Int}
    (shown : ∀ c ∈ DateFormat.unescaped pattern.toList, c ∉ DateFormat.zoneLetters)
    (shifted : here.toInt = instant.toInt + offset)
    (supported : isSupportedInstant instant.toInt = true)
    (supportedHere : isSupportedInstant here.toInt = true) (now : Int) :
    date.call [.string pattern, .integer instant] ⟨offset, now⟩ =
      date.call [.string pattern, .integer here] ⟨0, now⟩ := by
  have same : (⟨instant.toInt, offset⟩ : LocalTime).seconds =
      (⟨here.toInt, 0⟩ : LocalTime).seconds := by
    rw [LocalTime.seconds, LocalTime.seconds, shifted, Int.add_zero]
  rw [date_call, date_call, if_pos supported, if_pos supportedHere,
    DateFormat.format_congr same shown]

/-- At an offset both functions do what they do in UTC at the local time, as long as a base and its
local time are both supported or both not. -/
theorem dates_shift_with_offset :
    (∀ (text : String) (base here : Int64) (offset now : Int), IsLocalPhrase text →
      here.toInt = base.toInt + offset →
      isSupportedInstant base.toInt = isSupportedInstant here.toInt →
      let inZone := instantOfPhrase.call [.string text, .integer base] ⟨offset, now⟩
      let inUtc := instantOfPhrase.call [.string text, .integer here] ⟨0, now⟩
      (inZone = .ok (.bool false) ∧ inUtc = .ok (.bool false)) ∨
        ∃ n m : Int64, inZone = .ok (.integer n) ∧ inUtc = .ok (.integer m) ∧
          n.toInt = m.toInt - offset) ∧
    ∀ (pattern : String) (instant here : Int64) (offset now : Int),
      (∀ c ∈ DateFormat.unescaped pattern.toList, c ∉ DateFormat.zoneLetters) →
      here.toInt = instant.toInt + offset →
      isSupportedInstant instant.toInt = true → isSupportedInstant here.toInt = true →
      date.call [.string pattern, .integer instant] ⟨offset, now⟩ =
        date.call [.string pattern, .integer here] ⟨0, now⟩ := by
  constructor
  · intro text base here offset now phrase shifted edges
    exact instantOfPhrase_shift phrase shifted edges now
  · intro pattern instant here offset now shown shifted supported supportedHere
    exact date_shift shown shifted supported supportedHere now

theorem dates_shift_with_offset_new_year :
    let phrase := "First day of next month"
    let pattern := "D \\e jS"
    let base : Int64 := 1420068600
    let here : Int64 := 1420072200
    IsLocalPhrase phrase ∧
    (∀ c ∈ DateFormat.unescaped pattern.toList, c ∉ DateFormat.zoneLetters) ∧
    instantOfPhrase.call [.string phrase, .integer here] ⟨0, 0⟩ = .ok (.integer 1422750600) ∧
    (∃ n : Int64, instantOfPhrase.call [.string phrase, .integer base] ⟨3600, 0⟩ = .ok (.integer n) ∧
      n.toInt = 1422750600 - 3600) ∧
    date.call [.string pattern, .integer here] ⟨0, 0⟩ = .ok (.string "Thu e 1st") ∧
    date.call [.string pattern, .integer base] ⟨3600, 0⟩ = .ok (.string "Thu e 1st") := by
  intro phrase pattern base here
  have tokens : Token.tokens? ((Text.strip Text.isBlank phrase.toList).map Char.toLower) =
      some [.monthEdge .first, .shift .month 1] := by
    decide
  have isLocal : IsLocalPhrase phrase := by
    refine ⟨by decide, by decide, fun read scanned => ?_⟩
    obtain rfl := Option.some.inj (tokens.symm.trans scanned)
    decide
  have shown : ∀ c ∈ DateFormat.unescaped pattern.toList, c ∉ DateFormat.zoneLetters := by
    have each : ((DateFormat.unescaped pattern.toList).all
        fun c => decide (c ∉ DateFormat.zoneLetters)) = true := by decide
    exact fun c member => of_decide_eq_true (List.all_eq_true.mp each c member)
  have inUtc : instantOfPhrase.call [.string phrase, .integer here] ⟨0, 0⟩ =
      .ok (.integer 1422750600) := by
    have denotes : parse phrase here.toInt 0 = .ok 1422750600 := by decide
    rw [instantOfPhrase_call, denotes]
    rfl
  have written : date.call [.string pattern, .integer here] ⟨0, 0⟩ = .ok (.string "Thu e 1st") := by
    have text : DateFormat.format pattern ⟨here.toInt, 0⟩ = "Thu e 1st" := by decide
    rw [date_call, if_pos (by decide), text]
  obtain ⟨phrases, formats⟩ := dates_shift_with_offset
  refine ⟨isLocal, shown, inUtc, ?_, written,
    (formats pattern base here 3600 0 shown (by decide) (by decide) (by decide)).trans written⟩
  obtain ⟨-, nothing⟩ | ⟨n, m, inZone, sameUtc, shift⟩ :=
    phrases phrase base here 3600 0 isLocal (by decide) (by decide)
  · cases inUtc.symm.trans nothing
  · obtain rfl : 1422750600 = m := Value.integer.inj (Except.ok.inj (inUtc.symm.trans sameUtc))
    exact ⟨n, inZone, shift⟩

/-- What is written in a full format is read back as the same instant, relative to any base that has
a local time. Without one only an instant that is written as such is read. -/
theorem written_dates_are_read_back {pattern : String} (listed : pattern ∈ readableFormats)
    (instant base : Int64) (offset now : Int) (fixed : offset.natAbs < 86400)
    (low : 1000 ≤ yearOf (LocalTime.day ⟨instant.toInt, offset⟩))
    (high : yearOf (LocalTime.day ⟨instant.toInt, offset⟩) ≤ 9999)
    (supportedBase : isSupportedInstant base.toInt = true) :
    ∃ text, date.call [.string pattern, .integer instant] ⟨offset, now⟩ = .ok (.string text) ∧
      instantOfPhrase.call [.string text, .integer base] ⟨offset, now⟩ =
        if pattern = "@U" ∨ isSupportedInstant (base.toInt + offset) then .ok (.integer instant)
        else .error noLocalTime := by
  have supported : isSupportedInstant instant.toInt = true :=
    isSupportedInstant_of_year (t := ⟨instant.toInt, offset⟩) fixed low high
  refine ⟨DateFormat.format pattern ⟨instant.toInt, offset⟩, ?_, ?_⟩
  · rw [date_call, if_pos supported]
  · have back := parse_format listed low high supported supportedBase
    rw [instantOfPhrase_call, back]
    split
    next => rw [phraseResult, Int64.ofInt_toInt]
    next => rfl

theorem written_dates_are_read_back_leap_day :
    let pattern := "Y-m-d g:i:s a"
    let instant : Int64 := 951801457
    let context : Context := ⟨-19052, 0⟩
    pattern ∈ readableFormats ∧
    date.call [.string pattern, .integer instant] context = .ok (.string "2000-02-29 12:00:05 am") ∧
    instantOfPhrase.call [.string "2000-02-29 12:00:05 am", .integer 0] context =
      .ok (.integer instant) := by
  intro pattern instant context
  have listed : pattern ∈ readableFormats := by decide
  have shown :
      DateFormat.format pattern ⟨instant.toInt, context.offset⟩ = "2000-02-29 12:00:05 am" := by
    decide
  have written : date.call [.string pattern, .integer instant] context =
      .ok (.string "2000-02-29 12:00:05 am") := by
    rw [date_call, if_pos (by decide), shown]
  obtain ⟨text, alsoWritten, back⟩ := written_dates_are_read_back listed instant 0 context.offset
    context.now (by decide) (by decide) (by decide) (by decide)
  obtain rfl : "2000-02-29 12:00:05 am" = text :=
    Value.string.inj (Except.ok.inj (written.symm.trans alsoWritten))
  exact ⟨listed, written, back⟩

/-- One hour east of UTC the last hour before the end of the calendar has no local time. -/
theorem last_hour_stops_written_dates :
    let pattern := "Y-m-d H:i:s"
    let context : Context := ⟨3600, 0⟩
    isSupportedInstant (8210266876799 : Int64).toInt = true ∧
    date.call [.string pattern, .integer 1418031515] context =
      .ok (.string "2014-12-08 10:38:35") ∧
    instantOfPhrase.call [.string "2014-12-08 10:38:35", .integer 8210266876799] context =
      .error noLocalTime := by
  intro pattern context
  have shown : DateFormat.format pattern ⟨(1418031515 : Int64).toInt, 3600⟩ =
      "2014-12-08 10:38:35" := by
    decide
  have stops : parse "2014-12-08 10:38:35" (8210266876799 : Int64).toInt 3600 =
      .error .noLocalTime := by
    decide
  refine ⟨by decide, ?_, ?_⟩
  · rw [date_call, if_pos (by decide), shown]
  · rw [instantOfPhrase_call, stops]
    rfl

/-- What the letter `c` writes at an offset of whole minutes is read back wherever and whenever it is
read, if its year has four digits. The year has no zeros in front, so a date of the first thousand
years is not read at all. -/
theorem iso_dates_are_read_back_since_year_1000 (instant : Int64) (offset now : Int)
    (fixed : offset.natAbs < 86400) (minutes : offset % 60 = 0)
    (low : 0 ≤ yearOf (LocalTime.day ⟨instant.toInt, offset⟩))
    (high : yearOf (LocalTime.day ⟨instant.toInt, offset⟩) ≤ 9999) :
    ∃ text, date.call [.string "c", .integer instant] ⟨offset, now⟩ = .ok (.string text) ∧
      ∀ (base : Int64) (context : Context),
        instantOfPhrase.call [.string text, .integer base] context =
          .ok (if 1000 ≤ yearOf (LocalTime.day ⟨instant.toInt, offset⟩) then .integer instant
            else .bool false) := by
  let t : LocalTime := ⟨instant.toInt, offset⟩
  have supported : isSupportedInstant instant.toInt = true :=
    isSupportedInstant_of_year_nonneg (t := t) fixed low high
  refine ⟨DateFormat.format "c" t, ?_, fun base context => ?_⟩
  · rw [date_call, if_pos supported]
  · rw [instantOfPhrase_call]
    by_cases fourDigits : 1000 ≤ yearOf t.day
    · rw [parse_iso fourDigits high fixed minutes, if_pos fourDigits, phraseResult]
      simp only [t, Int64.ofInt_toInt]
    · rw [parse_iso_of_shortYear low (Int.not_le.mp fourDigits) fixed, if_neg fourDigits]
      rfl

theorem iso_dates_are_read_back_since_year_1000_last :
    let instant : Int64 := 253402320599
    let offset : Int := -19800
    offset.natAbs < 86400 ∧ offset % 60 = 0 ∧
    yearOf (LocalTime.day ⟨instant.toInt, offset⟩) = 9999 ∧
    date.call [.string "c", .integer instant] ⟨offset, 0⟩ =
      .ok (.string "9999-12-31T23:59:59-05:30") ∧
    instantOfPhrase.call [.string "9999-12-31T23:59:59-05:30", .integer (-7)] ⟨3600, 0⟩ =
      .ok (.integer instant) := by
  intro instant offset
  have year : yearOf (LocalTime.day ⟨instant.toInt, offset⟩) = 9999 := by decide
  have shown : DateFormat.format "c" ⟨instant.toInt, offset⟩ = "9999-12-31T23:59:59-05:30" := by
    decide
  have written : date.call [.string "c", .integer instant] ⟨offset, 0⟩ =
      .ok (.string "9999-12-31T23:59:59-05:30") := by
    rw [date_call, if_pos (by decide), shown]
  obtain ⟨text, alsoWritten, back⟩ := iso_dates_are_read_back_since_year_1000 instant offset 0
    (by decide) (by decide) (by decide) (by decide)
  obtain rfl : "9999-12-31T23:59:59-05:30" = text :=
    Value.string.inj (Except.ok.inj (written.symm.trans alsoWritten))
  rw [if_pos (by decide)] at back
  exact ⟨by decide, by decide, year, written, back (-7) ⟨3600, 0⟩⟩

/-- The last second of the year 999 is written with three digits and not read back. -/
theorem year_999_is_not_read_back :
    yearOf (LocalTime.day ⟨(-30610224001 : Int64).toInt, 0⟩) = 999 ∧
    date.call [.string "c", .integer (-30610224001)] ⟨0, 0⟩ =
      .ok (.string "999-12-31T23:59:59+00:00") ∧
    instantOfPhrase.call [.string "999-12-31T23:59:59+00:00", .integer 0] ⟨0, 0⟩ =
      .ok (.bool false) := by
  have shown : DateFormat.format "c" ⟨(-30610224001 : Int64).toInt, 0⟩ =
      "999-12-31T23:59:59+00:00" := by
    decide
  have unread : parse "999-12-31T23:59:59+00:00" (0 : Int64).toInt 0 = .error .notUnderstood := by
    decide
  refine ⟨by decide, ?_, ?_⟩
  · rw [date_call, if_pos (by decide), shown]
  · rw [instantOfPhrase_call, unread]
    rfl

end ConfigExpr.Standard
