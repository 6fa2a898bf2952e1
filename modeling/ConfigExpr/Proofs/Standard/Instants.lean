import ConfigExpr.Proofs.DatePhrase.SignedAmounts
import ConfigExpr.Proofs.DatePhrase.WrittenTimes
import ConfigExpr.Proofs.Standard.Dates

/-!
Instants that phrases give exactly. A date, a time of day and an offset in digits give an instant
that depends on nothing else, once the base has a local time at that offset, and signed numbers of
units of fixed length move the base by their sum as long as nothing is clamped.
-/
namespace ConfigExpr.Standard
open Calendar DatePhrase

/-- A date, a time of day and an offset mean civil time in each of their orders, but they are not
read relative to a base that has no local time at the offset. -/
theorem written_times_commute (t : WrittenTime) {order : List Component}
    (perm : order.Perm [.date, .clock, .zone]) {base : Int64}
    (supportedBase : isSupportedInstant base.toInt = true) (context : Context) :
    ∃ n : Int64,
      instantOfPhrase.call [.string (String.ofList (t.text order)), .integer base] context =
        (if isSupportedInstant (base.toInt + Token.ofZone t.west t.zoneHour t.zoneMinute) then
          .ok (.integer n)
        else .error noLocalTime) ∧
      n.toInt = 86400 * (dayNumber t.year.value t.month.value 1 + (t.day.value - 1)) +
        (t.hour.value * 3600 + t.minute.value * 60 + t.second.value) -
        Token.ofZone t.west t.zoneHour t.zoneMinute := by
  have whole : (Int64.ofInt t.instant).toInt = t.instant := by
    obtain ⟨low, high⟩ := t.instant_bounds
    exact Int64.toInt_ofInt_of_le (by omega) (by omega)
  refine ⟨Int64.ofInt t.instant, ?_, ?_⟩
  · rw [instantOfPhrase_call, WrittenTime.parse_text perm supportedBase]
    split <;> rfl
  · rw [whole, WrittenTime.instant, WrittenTime.secondsOfDay]
    omega

theorem written_times_commute_past_february :
    let t : WrittenTime :=
      { year := ⟨['0', '0', '0', '0'], List.all_eq_true.mp rfl, rfl⟩
        month := ⟨['0', '2'], List.all_eq_true.mp rfl, rfl⟩
        day := ⟨['3', '1'], List.all_eq_true.mp rfl, rfl⟩
        hour := ⟨['2', '3'], List.all_eq_true.mp rfl, rfl⟩
        minute := ⟨['0', '0'], List.all_eq_true.mp rfl, rfl⟩
        second := ⟨['5', '9'], List.all_eq_true.mp rfl, rfl⟩
        west := true
        zoneHour := ⟨['0', '5'], List.all_eq_true.mp rfl, rfl⟩
        zoneMinute := ⟨['3', '0'], List.all_eq_true.mp rfl, rfl⟩
        months := by decide
        days := by decide
        hours := by decide
        minutes := by decide
        seconds := by decide
        zone := by decide }
    [Component.zone, .date, .clock].Perm [.date, .clock, .zone] ∧
    isSupportedInstant (8000000000000 : Int64).toInt = true ∧
    String.ofList (t.text [.zone, .date, .clock]) = "-05:30 0000-02-31 23:00:59" ∧
    ∃ n : Int64, instantOfPhrase.call
        [.string "-05:30 0000-02-31 23:00:59", .integer 8000000000000] ⟨3600, 0⟩ =
        .ok (.integer n) ∧
      n.toInt = 86400 * dayNumber 0 3 3 + 4 * 3600 + 30 * 60 + 59 := by
  intro t
  have perm : [Component.zone, .date, .clock].Perm [.date, .clock, .zone] := by decide
  have supported : isSupportedInstant (8000000000000 : Int64).toInt = true := by decide
  have written : String.ofList (t.text [.zone, .date, .clock]) = "-05:30 0000-02-31 23:00:59" := by
    decide
  obtain ⟨n, called, value⟩ := written_times_commute t perm supported ⟨3600, 0⟩
  rw [written, if_pos (by decide)] at called
  exact ⟨perm, supported, written, n, called, value.trans (by decide)⟩

/-- One hour east of UTC the last hour before the end of the calendar has no local time. -/
theorem last_hour_stops_written_times :
    let t : WrittenTime :=
      { year := ⟨['2', '0', '1', '4'], List.all_eq_true.mp rfl, rfl⟩
        month := ⟨['1', '2'], List.all_eq_true.mp rfl, rfl⟩
        day := ⟨['0', '8'], List.all_eq_true.mp rfl, rfl⟩
        hour := ⟨['1', '0'], List.all_eq_true.mp rfl, rfl⟩
        minute := ⟨['3', '8'], List.all_eq_true.mp rfl, rfl⟩
        second := ⟨['3', '5'], List.all_eq_true.mp rfl, rfl⟩
        west := false
        zoneHour := ⟨['0', '1'], List.all_eq_true.mp rfl, rfl⟩
        zoneMinute := ⟨['0', '0'], List.all_eq_true.mp rfl, rfl⟩
        months := by decide
        days := by decide
        hours := by decide
        minutes := by decide
        seconds := by decide
        zone := by decide }
    isSupportedInstant (8210266876799 : Int64).toInt = true ∧
    String.ofList (t.text [.clock, .date, .zone]) = "10:38:35 2014-12-08 +01:00" ∧
    instantOfPhrase.call [.string "10:38:35 2014-12-08 +01:00", .integer 8210266876799] ⟨0, 0⟩ =
      .error noLocalTime := by
  intro t
  have stops : parse "10:38:35 2014-12-08 +01:00" (8210266876799 : Int64).toInt 0 =
      .error .noLocalTime := by
    decide
  refine ⟨by decide, by decide, ?_⟩
  rw [instantOfPhrase_call, stops]
  rfl

section SignedAmounts
variable {items : List SignedAmount} {base n : Int64} {context : Context}

theorem toInt_signed_amounts (fixed : context.offset.natAbs < 86400)
    (called : instantOfPhrase.call
      [.string (String.ofList (SignedAmount.phrase items)), .integer base] context =
        .ok (.integer n)) :
    n.toInt = base.toInt + (SignedAmount.shift items).span := by
  rw [instantOfPhrase_call] at called
  cases read : parse (String.ofList (SignedAmount.phrase items)) base.toInt context.offset with
  | error fault =>
    rw [read] at called
    cases fault <;> cases called
  | ok instant =>
    rw [read] at called
    obtain rfl := Value.integer.inj (Except.ok.inj called)
    obtain ⟨supported, same⟩ := SignedAmount.parse_phrase read
    have bounds := bounds_of_isSupportedInstant supported
    have whole : (Int64.ofInt instant).toInt = instant :=
      Int64.toInt_ofInt_of_le (by omega) (by omega)
    rw [whole, same]

theorem toInt_unclamped_amounts (fixed : context.offset.natAbs < 86400)
    (unclamped : SignedAmount.Unclamped items)
    (called : instantOfPhrase.call
      [.string (String.ofList (SignedAmount.phrase items)), .integer base] context =
        .ok (.integer n)) :
    n.toInt = base.toInt + (items.map SignedAmount.seconds).sum := by
  rw [toInt_signed_amounts fixed called, SignedAmount.shift_eq_exactShift unclamped,
    SignedAmount.span_exactShift]

/-- A list of signed amounts moves the base by its clamped total, which is the exact sum where
nothing is clamped, and then the same in every order. -/
theorem signed_amounts_add_up (fixed : context.offset.natAbs < 86400)
    (called : instantOfPhrase.call
      [.string (String.ofList (SignedAmount.phrase items)), .integer base] context =
        .ok (.integer n)) :
    n.toInt = base.toInt + (SignedAmount.shift items).span ∧
    (SignedAmount.Unclamped items →
      n.toInt = base.toInt + (items.map SignedAmount.seconds).sum ∧
      ∀ (others : List SignedAmount) (m : Int64), others.Perm items →
        SignedAmount.Unclamped others →
        instantOfPhrase.call
          [.string (String.ofList (SignedAmount.phrase others)), .integer base] context =
            .ok (.integer m) →
        m = n) := by
  refine ⟨toInt_signed_amounts fixed called, fun unclamped => ?_⟩
  have exact := toInt_unclamped_amounts fixed unclamped called
  refine ⟨exact, fun others m perm othersUnclamped othersCalled => ?_⟩
  have othersExact := toInt_unclamped_amounts fixed othersUnclamped othersCalled
  have sums : (others.map SignedAmount.seconds).sum = (items.map SignedAmount.seconds).sum :=
    (perm.map _).foldr_eq' (fun a _ b _ sum => by omega) 0
  rw [← Int64.toInt_inj, othersExact, exact, sums]

end SignedAmounts

theorem signed_amounts_add_up_to_days :
    let week : SignedAmount :=
      { back := false, digits := ['1'], ascii := List.all_eq_true.mp rfl, filled := by decide
        small := by decide, word := ['W', 'e', 'e', 'k'], unit := .week, named := by decide
        length := 7 * 86400, lasts := rfl }
    let minutes : SignedAmount :=
      { back := true, digits := ['0', '9', '0'], ascii := List.all_eq_true.mp rfl, filled := by decide
        small := by decide, word := ['m', 'i', 'n', 's'], unit := .minute, named := by decide
        length := 60, lasts := rfl }
    let context : Context := ⟨3600, 0⟩
    String.ofList (SignedAmount.phrase [week, minutes]) = "+1 Week -090 mins" ∧
    String.ofList (SignedAmount.phrase [minutes, week]) = "-090 mins +1 Week" ∧
    SignedAmount.Unclamped [week, minutes] ∧ SignedAmount.Unclamped [minutes, week] ∧
    instantOfPhrase.call [.string "+1 Week -090 mins", .integer 1418031515] context =
      .ok (.integer 1418630915) ∧
    (1418630915 : Int64).toInt = (1418031515 : Int64).toInt + (7 * 86400 - 90 * 60) ∧
    ∀ m, instantOfPhrase.call [.string "-090 mins +1 Week", .integer 1418031515] context =
      .ok (.integer m) → m = 1418630915 := by
  intro week minutes context
  have written : String.ofList (SignedAmount.phrase [week, minutes]) = "+1 Week -090 mins" := by
    decide
  have turned : String.ofList (SignedAmount.phrase [minutes, week]) = "-090 mins +1 Week" := by
    decide
  have unclamped : SignedAmount.Unclamped [week, minutes] := ⟨by decide, by decide⟩
  have turnedUnclamped : SignedAmount.Unclamped [minutes, week] := ⟨by decide, by decide⟩
  have called : instantOfPhrase.call [.string "+1 Week -090 mins", .integer 1418031515] context =
      .ok (.integer 1418630915) := by
    have denotes : parse "+1 Week -090 mins" (1418031515 : Int64).toInt 3600 = .ok 1418630915 := by
      decide
    rw [instantOfPhrase_call, denotes]
    rfl
  obtain ⟨-, exact⟩ := signed_amounts_add_up (by decide) (written ▸ called)
  obtain ⟨sum, orders⟩ := exact unclamped
  have seconds : ([week, minutes].map SignedAmount.seconds).sum = 7 * 86400 - 90 * 60 := by decide
  rw [seconds] at sum
  refine ⟨written, turned, unclamped, turnedUnclamped, called, sum, fun m turnedCalled => ?_⟩
  exact orders [minutes, week] m (List.Perm.swap _ _ _) turnedUnclamped (turned ▸ turnedCalled)

/-- The days of so many weeks are clamped to different magnitudes ahead and back, so the two do not
cancel. -/
theorem opposite_weeks_do_not_cancel :
    let weeks (back : Bool) : SignedAmount :=
      { back := back, digits := "9223372036854775807".toList
        ascii := List.all_eq_true.mp rfl, filled := by decide
        small := by decide, word := ['w', 'e', 'e', 'k', 's'], unit := .week, named := by decide
        length := 7 * 86400, lasts := rfl }
    String.ofList (SignedAmount.phrase [weeks false, weeks true]) =
      "+9223372036854775807 weeks -9223372036854775807 weeks" ∧
    ([weeks false, weeks true].map SignedAmount.seconds).sum = 0 ∧
    instantOfPhrase.call
      [.string "+9223372036854775807 weeks -9223372036854775807 weeks", .integer 0] ⟨0, 0⟩ =
        .ok (.integer (-86400)) := by
  intro weeks
  have denotes : parse "+9223372036854775807 weeks -9223372036854775807 weeks" (0 : Int64).toInt 0 =
      .ok (-86400) := by
    decide
  refine ⟨by decide, by decide, ?_⟩
  rw [instantOfPhrase_call, denotes]
  rfl

end ConfigExpr.Standard
