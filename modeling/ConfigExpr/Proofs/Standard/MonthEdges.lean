import ConfigExpr.Proofs.DatePhrase.MonthPhrases
import ConfigExpr.Proofs.Standard.Dates

/-!
The first and the last day of another month as instants. The time of day stays that of the base, and
the month is the one that is meant wherever that month has the day of the base; otherwise the day
runs on into the next month, and the edge is taken of that.
-/
namespace ConfigExpr.Standard
open Calendar DatePhrase

theorem edgePlace_eq (day : Int) (edge : MonthEdge) :
    edgePlace (monthIndex day) edge = match edge with
      | .first => 1
      | .last => monthLength (yearOf day) (monthOf day) := by
  rw [yearOf_eq, monthOf_eq]
  cases edge with
  | first | last => rfl

/-- A phrase for an edge of another month gives an edge of the month in which the day of the base
lands there. -/
theorem month_edges_follow_the_landing (edge : MonthEdge) (step : MonthStep) (base : Int64)
    (offset now : Int) (supportedBase : isSupportedInstant base.toInt = true)
    (supportedHere : isSupportedInstant (base.toInt + offset) = true)
    (inRange : isSupportedYear
      ((monthIndex (LocalTime.day ⟨base.toInt, offset⟩) + step.months) / 12) = true) :
    let here : LocalTime := ⟨base.toInt, offset⟩
    let target := monthIndex here.day + step.months
    ∃ n : Int64,
      instantOfPhrase.call [.string (String.ofList (edgePhrase edge step)), .integer base]
        ⟨offset, now⟩ = .ok (.integer n) ∧
      let there : LocalTime := ⟨n.toInt, offset⟩
      secondOfDay there.seconds = secondOfDay here.seconds ∧
      (dayOfMonth there.day = match edge with
        | .first => 1
        | .last => monthLength (yearOf there.day) (monthOf there.day)) ∧
      monthIndex there.day =
        if dayOfMonth here.day ≤ monthLength (target / 12) (target % 12 + 1).toNat then target
        else target + 1 := by
  intro here target
  let day := edgeDay (landing here.day step.months) edge
  let shown := day * 86400 + secondOfDay here.seconds
  have denotes : parse (String.ofList (edgePhrase edge step)) base.toInt offset =
      .ok (shown - offset) :=
    parse_edgePhrase edge step supportedBase supportedHere inRange
  have shownDay : dayOf shown = day := dayOf_add_clock day (secondOfDay_lt here.seconds)
  have supportedShown : isSupportedInstant shown = true := by
    rw [isSupportedInstant, shownDay]
    exact isSupported_landing edge inRange
  have whole : (Int64.ofInt (shown - offset)).toInt = shown - offset := by
    have base64 := bounds_of_isSupportedInstant supportedBase
    have here64 := bounds_of_isSupportedInstant supportedHere
    have shown64 := bounds_of_isSupportedInstant supportedShown
    exact Int64.toInt_ofInt_of_le (by omega) (by omega)
  refine ⟨Int64.ofInt (shown - offset), ?_, ?_⟩
  · rw [instantOfPhrase_call, denotes]
    rfl
  · simp only [LocalTime.day, LocalTime.seconds, whole, Int.sub_add_cancel, shownDay]
    refine ⟨secondOfDay_add_clock day (secondOfDay_lt here.seconds), ?_, monthIndex_edgeDay _ edge⟩
    rw [← edgePlace_eq, monthIndex_edgeDay]
    exact dayOfMonth_edgeDay _ edge

theorem month_edges_follow_the_landing_leap_day :
    let here : LocalTime := ⟨1450576800, 3600⟩
    isSupportedInstant here.instant = true ∧ isSupportedInstant (here.instant + 3600) = true ∧
    isSupportedYear ((monthIndex here.day + 2) / 12) = true ∧
    ∃ n : Int64, instantOfPhrase.call [.string "last day of +2 months", .integer 1450576800]
        ⟨3600, 0⟩ = .ok (.integer n) ∧
      secondOfDay (LocalTime.seconds ⟨n.toInt, 3600⟩) = 3 * 3600 ∧
      dayOfMonth (LocalTime.day ⟨n.toInt, 3600⟩) =
        monthLength (yearOf (LocalTime.day ⟨n.toInt, 3600⟩))
          (monthOf (LocalTime.day ⟨n.toInt, 3600⟩)) ∧
      monthIndex (LocalTime.day ⟨n.toInt, 3600⟩) = 12 * 2016 + 1 := by
  intro here
  have spelled : String.ofList (edgePhrase .last (.counted false 2)) = "last day of +2 months" := by
    decide
  obtain ⟨n, called, clock, place, month⟩ := month_edges_follow_the_landing .last
    (.counted false 2) 1450576800 3600 0 (by decide) (by decide) (by decide)
  rw [spelled] at called
  rw [if_pos (by decide)] at month
  exact ⟨by decide, by decide, by decide, n, called, clock, place, month⟩

/-- From the last day of January, the first day of the next month is the first of March. -/
theorem first_day_of_next_month_passes_february :
    let here : LocalTime := ⟨1422662400, 0⟩
    let there : LocalTime := ⟨1425168000, 0⟩
    instantOfPhrase.call [.string "first day of next month", .integer 1422662400] ⟨0, 0⟩ =
      .ok (.integer 1425168000) ∧
    monthIndex there.day = monthIndex here.day + 2 ∧ dayOfMonth there.day = 1 := by
  intro here there
  have denotes : parse "first day of next month" (1422662400 : Int64).toInt 0 =
      .ok 1425168000 := by decide
  refine ⟨?_, by decide, by decide⟩
  rw [instantOfPhrase_call, denotes]
  rfl

end ConfigExpr.Standard
