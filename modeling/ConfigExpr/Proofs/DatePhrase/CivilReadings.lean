import ConfigExpr.Proofs.Calendar.Months
import ConfigExpr.Proofs.DatePhrase.AbsoluteTokens
import ConfigExpr.Proofs.DatePhrase.Resolution

/-!
Readings of a whole date with a time of day, which denote local seconds that depend on nothing else,
and with an offset an instant that does not. The day may be one that its month does not have.
-/
namespace ConfigExpr.DatePhrase
open Calendar

theorem dayInMonth?_eq {year month day : Nat} (early : year ≤ 9999) (months : 1 ≤ month ∧ month ≤ 12)
    (days : 1 ≤ day ∧ day ≤ 31) :
    dayInMonth? year month day = some (dayNumber year month 1 + (day - 1)) ∧
      isSupported (dayNumber year month 1 + (day - 1)) = true := by
  let index : Int := 12 * year + (month - 1)
  have inYear : index / 12 = year := by omega
  have place : (index % 12 + 1).toNat = month := by omega
  have start : monthStart index = dayNumber year month 1 := by rw [monthStart, inYear, place]
  have supported : isSupportedYear (year : Int) = true := by
    rw [isSupportedYear, minYear, maxYear, Bool.and_eq_true, decide_eq_true_eq, decide_eq_true_eq]
    omega
  have there := isSupported_monthStart_add (inYear ▸ supported) days.1 days.2
  rw [start] at there
  refine ⟨?_, there⟩
  rw [dayInMonth?, if_pos supported, supported?, if_pos there]

namespace Reading

/-- The reading of a date with a time of day, given in seconds since midnight. -/
def civil (year month day seconds : Nat) : Reading :=
  { empty with date := some ⟨some year, month, day⟩, time := some seconds }

/-- The reading of a date, a time of day in seconds since midnight, and an offset. -/
def zoned (year month day seconds : Nat) (zone : Int) : Reading :=
  { civil year month day seconds with offset := some zone }

theorem hourOfDay?_unmarked {hour : Nat} (day : hour < 24) : hourOfDay? hour none = some hour :=
  if_pos day

section Tokens
variable {year month day clockHour hour minute second : Nat} {half : Option Half}

theorem ofTokens?_civil (months : 1 ≤ month ∧ month ≤ 12) (days : 1 ≤ day ∧ day ≤ 31)
    (hours : hourOfDay? clockHour half = some hour) (minutes : minute < 60) (seconds : second < 60) :
    ofTokens? [.date (some year) month day, .time clockHour minute second half] =
      some (civil year month day (hour * 3600 + minute * 60 + second)) := by
  simp [ofTokens?, add, setDate, setTime, empty, civil, months, days, hours, minutes, seconds]

theorem ofTokens?_zoned (months : 1 ≤ month ∧ month ≤ 12) (days : 1 ≤ day ∧ day ≤ 31)
    (hours : hourOfDay? clockHour half = some hour) (minutes : minute < 60) (seconds : second < 60)
    {zone : Int} (small : zone.natAbs < 86400) :
    ofTokens? [.date (some year) month day, .time clockHour minute second half, .offset zone] =
      some (zoned year month day (hour * 3600 + minute * 60 + second) zone) := by
  simp [ofTokens?, add, setDate, setTime, setOffset, empty, civil, zoned, months, days, hours,
    minutes, seconds, small]

end Tokens

section Instants
variable {year month day seconds : Nat} (early : year ≤ 9999) (months : 1 ≤ month ∧ month ≤ 12)
  (days : 1 ≤ day ∧ day ≤ 31) (few : seconds < 86400)
include early months days few

theorem local?_civil (here : Int) : (civil year month day seconds).local? here =
    some ((dayNumber year month 1 + (day - 1)) * 86400 + seconds) := by
  obtain ⟨there, supported⟩ := dayInMonth?_eq early months days
  have onDay : (civil year month day seconds).day? (dayOf here) =
      some (dayNumber year month 1 + (day - 1)) := by
    change (dayInMonth? year month day >>= fun day => some day) = _
    rw [there]
    rfl
  refine local?_of_unshifted rfl onDay ?_
  change isSupported (dayOf (_ * 86400 + seconds)) = true
  rwa [dayOf_add_clock _ few]

theorem resolve_civil (base offset : Int) : (civil year month day seconds).resolve base offset =
    readAt base offset fun _ => some ((dayNumber year month 1 + (day - 1)) * 86400 + seconds) :=
  congrArg (readAt base offset) (funext (local?_civil early months days few))

theorem resolve_zoned (zone base offset : Int) :
    (zoned year month day seconds zone).resolve base offset =
      readAt base zone fun _ => some ((dayNumber year month 1 + (day - 1)) * 86400 + seconds) :=
  congrArg (readAt base zone) (funext (local?_civil early months days few))

end Instants

end Reading

end ConfigExpr.DatePhrase
