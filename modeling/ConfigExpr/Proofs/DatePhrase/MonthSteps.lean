import ConfigExpr.Proofs.DatePhrase.MonthPhrases
import ConfigExpr.Proofs.DatePhrase.SignedCounts

/-!
Signed numbers of months and of years. Both move the local date of the base by a number of months and
leave the time of day as it is.
-/
namespace ConfigExpr.DatePhrase
open Calendar

/-- The local time so many months later, if the month is in a supported year. -/
def monthShift? (months here : Int) : Option Int :=
  if isSupportedYear ((monthIndex (dayOf here) + months) / 12) then
    some (monthsLater (dayOf here) months * 86400 + secondOfDay here)
  else none

theorem monthShift?_eq_some {months here there : Int} :
    monthShift? months here = some there ↔
      isSupportedYear ((monthIndex (dayOf here) + months) / 12) = true ∧
        monthsLater (dayOf here) months * 86400 + secondOfDay here = there := by
  rw [monthShift?, Option.ite_none_right_eq_some, Option.some.injEq]

theorem isSupportedInstant_of_monthShift? {months here there : Int}
    (shifted : monthShift? months here = some there) : isSupportedInstant there = true := by
  obtain ⟨inRange, rfl⟩ := monthShift?_eq_some.mp shifted
  rw [isSupportedInstant, dayOf_add_clock _ (secondOfDay_lt here)]
  exact isSupported_monthsLater inRange

theorem monthShift?_monthShift? {here first middle : Int} (early : dayOfMonth (dayOf here) ≤ 28)
    (there : monthShift? first here = some middle) (second : Int) :
    monthShift? second middle = monthShift? (first + second) here := by
  obtain ⟨-, rfl⟩ := monthShift?_eq_some.mp there
  have few := secondOfDay_lt here
  simp only [monthShift?, dayOf_add_clock _ few, secondOfDay_add_clock _ few,
    monthIndex_monthsLater early, monthsLater_monthsLater early, Int.add_assoc]

theorem natAbs_lt_of_monthShift? {months here there : Int}
    (supported : isSupportedInstant here = true) (shifted : monthShift? months here = some there) :
    months.natAbs < 2 ^ 62 := by
  have near := bounds_of_isSupportedInstant supported
  have years := bounds_of_isSupportedYear (monthShift?_eq_some.mp shifted).1
  have today : -2 ^ 30 < dayOf here ∧ dayOf here < 2 ^ 30 := by
    rw [dayOf, daySeconds]
    omega
  generalize dayOf here = day at years today
  have spec := yearOf_spec day
  rw [yearOf_eq, yearStart, yearStart] at spec
  omega

theorem monthShift?_of_great {months here : Int} (supported : isSupportedInstant here = true)
    (great : 2 ^ 62 ≤ months.natAbs) : monthShift? months here = none := by
  cases shifted : monthShift? months here with
  | none => rfl
  | some there =>
    have few := natAbs_lt_of_monthShift? supported shifted
    omega

theorem addMonths?_of_unsupported {today months : Int}
    (beyond : isSupportedYear ((monthIndex today + months) / 12) = false) :
    addMonths? today months = none := by
  rw [addMonths?, ← monthIndex]
  cases within : within64? (monthIndex today + months) with
  | none => rfl
  | some index =>
    obtain ⟨-, rfl⟩ := within64?_eq_some.mp within
    rw [Option.bind_eq_bind, Option.bind_some, dayInMonth?, beyond]
    rfl

namespace Reading
variable {s : Shift} {months : Int}

theorem local?_ofShift (total : s.totalMonths? = some months)
    (unshifted : s.totalSeconds? = some 0) {here : Int}
    (supported : isSupportedInstant here = true) :
    (ofShift s).local? here = monthShift? months here := by
  rw [monthShift?]
  split
  next inRange =>
    have reached : (ofShift s).day? (dayOf here) = some (monthsLater (dayOf here) months) :=
      (day?_ofShift s _).trans (shiftedDay?_of_supported total inRange)
    refine local?_of_unshifted unshifted reached ?_
    change isSupported (dayOf (_ * 86400 + secondOfDay here)) = true
    rw [dayOf_add_clock _ (secondOfDay_lt here)]
    exact isSupported_monthsLater inRange
  next beyond =>
    have moved : months ≠ 0 := by
      rintro rfl
      rw [Int.add_zero, ← isSupported_iff_monthIndex] at beyond
      exact beyond supported
    have shift : (ofShift s).shift.totalMonths? = some months := total
    rw [Bool.not_eq_true] at beyond
    rw [local?, day?_ofShift, shiftedDay?, shift, Option.bind_eq_bind, Option.bind_some,
      if_neg moved, addMonths?_of_unsupported beyond]
    rfl

theorem local?_ofShift_of_none (unread : s.totalMonths? = none) (here : Int) :
    (ofShift s).local? here = none := by
  have shift : (ofShift s).shift.totalMonths? = none := unread
  rw [local?, day?_ofShift, shiftedDay?, shift]
  rfl

end Reading

theorem readAt_monthShift? {amount months base offset : Int} (least : amount.natAbs ≤ months.natAbs)
    (known : isSupportedInstant base = true → isSupportedInstant (base + offset) = true) :
    (if amount.natAbs < 2 ^ 63 then readAt base offset (monthShift? months)
      else .error .notUnderstood) = readAt base offset (monthShift? months) := by
  split
  next => rfl
  next great =>
    cases supported : isSupportedInstant base with
    | false => exact (readAt_of_unsupported supported).symm
    | true =>
      have supportedHere := known supported
      rw [readAt_of_supported supported supportedHere,
        monthShift?_of_great supportedHere (by omega)]
      rfl

namespace SignedCount
variable {unit : TimeUnit} (a : SignedCount unit)

theorem natAbs_amount : a.amount.natAbs = Text.decimalValue a.digits := by
  rw [amount]
  split <;> omega

theorem parse_of_totalMonths {each : Int} (unscaled : IsInt64 a.amount →
      (Shift.none.add unit a.amount).totalMonths? = within64? (each * a.amount))
    (unshifted : (Shift.none.add unit a.amount).totalSeconds? = some 0) (base offset : Int) :
    parse (String.ofList a.text) base offset =
      if a.amount.natAbs < 2 ^ 63 then readAt base offset (monthShift? (each * a.amount))
      else .error .notUnderstood := by
  rw [a.parse_text, ← a.natAbs_amount]
  split
  next small =>
    have total := unscaled (by constructor <;> omega)
    refine readAt_congr fun supportedHere => ?_
    cases within : within64? (each * a.amount) with
    | some months =>
      obtain ⟨-, rfl⟩ := within64?_eq_some.mp within
      exact Reading.local?_ofShift (total.trans within) unshifted supportedHere
    | none =>
      have great : 2 ^ 62 ≤ (each * a.amount).natAbs := by
        by_contra small
        have inside : IsInt64 (each * a.amount) := by constructor <;> omega
        rw [within64?_eq_some.mpr ⟨inside, rfl⟩] at within
        cases within
      rw [Reading.local?_ofShift_of_none (total.trans within),
        monthShift?_of_great supportedHere great]
  next => rfl

theorem parse_months (a : SignedCount .month) (base offset : Int) :
    parse (String.ofList a.text) base offset =
      if a.amount.natAbs < 2 ^ 63 then readAt base offset (monthShift? a.amount)
      else .error .notUnderstood := by
  rw [← Int.one_mul a.amount, a.parse_of_totalMonths (fun inside => ?_) rfl, Int.one_mul]
  rw [Shift.totalMonths?, Shift.add, Shift.none, Int.zero_add, clamp_eq_self inside, Int.one_mul]
  exact congrArg within64? (Int.zero_add _)

theorem parse_years (a : SignedCount .year) (base offset : Int) :
    parse (String.ofList a.text) base offset =
      if a.amount.natAbs < 2 ^ 63 then readAt base offset (monthShift? (12 * a.amount))
      else .error .notUnderstood := by
  refine a.parse_of_totalMonths (fun inside => ?_) rfl base offset
  rw [Shift.totalMonths?, Shift.add, Shift.none, Int.zero_add, clamp_eq_self inside]
  cases within : within64? (12 * a.amount) with
  | none => rfl
  | some months =>
    obtain ⟨both, rfl⟩ := within64?_eq_some.mp within
    rw [Option.bind_eq_bind, Option.bind_some, Int.add_zero, within]

end SignedCount

end ConfigExpr.DatePhrase
