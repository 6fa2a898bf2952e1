import ConfigExpr.Proofs.Calendar.Civil

/-!
Months in one sequence through all years, in which each ends where the next begins. A day is in the
month whose span holds it, and a day of the month that the month does not have is in the month
after.
-/
namespace ConfigExpr.Calendar

/-- The months from January of the year 0 to the month of a day. -/
def monthIndex (day : Int) : Int :=
  12 * yearOf day + (monthOf day - 1)

def monthStart (index : Int) : Int :=
  dayNumber (index / 12) (index % 12 + 1).toNat 1

def spanLength (index : Int) : Nat :=
  monthLength (index / 12) (index % 12 + 1).toNat

theorem yearOf_eq (day : Int) : yearOf day = monthIndex day / 12 := by
  have months := (monthDay_spec day).1
  rw [monthIndex]
  omega

theorem monthOf_eq (day : Int) : monthOf day = (monthIndex day % 12 + 1).toNat := by
  have months := (monthDay_spec day).1
  rw [monthIndex]
  omega

theorem daysBeforeMonth_succ (year : Int) {month : Nat} (low : 1 ≤ month) (high : month ≤ 12) :
    daysBeforeMonth year (month + 1) = daysBeforeMonth year month + monthLength year month := by
  have each : ∀ leap, ∀ index < 12, ((monthLengths leap).take (index + 1)).foldr (· + ·) 0 =
      ((monthLengths leap).take index).foldr (· + ·) 0 + (monthLengths leap).getD index 31 := by
    decide
  obtain ⟨index, rfl⟩ := Nat.exists_eq_add_one.mpr low
  exact each (isLeapYear year) index high

theorem daysBeforeMonth_thirteen (year : Int) :
    daysBeforeMonth year 13 = if isLeapYear year then 366 else 365 :=
  sum_monthLengths (isLeapYear year)

theorem monthStart_succ (index : Int) :
    monthStart (index + 1) = monthStart index + spanLength index := by
  have next := daysBeforeMonth_succ (index / 12)
    (show 1 ≤ (index % 12 + 1).toNat by omega) (by omega)
  rw [monthStart, monthStart, spanLength, dayNumber, dayNumber]
  by_cases december : index % 12 = 11
  · have total := daysBeforeMonth_thirteen (index / 12)
    have year : (index + 1) / 12 = index / 12 + 1 := by omega
    have month : ((index + 1) % 12 + 1).toNat = 1 := by omega
    have last : (index % 12 + 1).toNat = 12 := by omega
    have none : daysBeforeMonth (index / 12 + 1) 1 = 0 := rfl
    rw [last, total] at next
    rw [year, month, last, yearStart_succ, none]
    generalize isLeapYear (index / 12) = leap at next ⊢
    cases leap with
    | false | true =>
      simp only [Bool.false_eq_true, ↓reduceIte] at next ⊢
      omega
  · have year : (index + 1) / 12 = index / 12 := by omega
    have month : ((index + 1) % 12 + 1).toNat = (index % 12 + 1).toNat + 1 := by omega
    rw [year, month, next]
    omega

theorem monthStart_mono {index later : Int} (le : index ≤ later) :
    monthStart index ≤ monthStart later := by
  obtain ⟨between, rfl⟩ := Int.exists_add_of_le le
  induction between with
  | zero => exact Int.le_of_eq (congrArg monthStart (Int.add_zero index).symm)
  | succ between ih =>
    have next := monthStart_succ (index + between)
    rw [Int.natCast_succ, ← Int.add_assoc, next]
    omega

theorem monthStart_add_dayOfMonth (day : Int) :
    monthStart (monthIndex day) + (dayOfMonth day - 1) = day := by
  rw [monthStart, ← yearOf_eq, ← monthOf_eq, dayNumber_first_add]

theorem dayOfMonth_le_spanLength (day : Int) :
    1 ≤ dayOfMonth day ∧ dayOfMonth day ≤ spanLength (monthIndex day) := by
  rw [spanLength, ← yearOf_eq, ← monthOf_eq]
  exact (monthDay_spec day).2.1

theorem monthIndex_spec (day : Int) :
    monthStart (monthIndex day) ≤ day ∧ day < monthStart (monthIndex day + 1) := by
  have told := monthStart_add_dayOfMonth day
  have within := dayOfMonth_le_spanLength day
  rw [monthStart_succ]
  omega

theorem monthIndex_eq {day index : Int} (low : monthStart index ≤ day)
    (high : day < monthStart (index + 1)) : monthIndex day = index := by
  obtain ⟨first, last⟩ := monthIndex_spec day
  have notBefore : ¬ monthIndex day < index := fun before => by
    have := monthStart_mono (Int.add_one_le_of_lt before)
    omega
  have notAfter : ¬ index < monthIndex day := fun after => by
    have := monthStart_mono (Int.add_one_le_of_lt after)
    omega
  omega

theorem le_spanLength (index : Int) : 28 ≤ spanLength index := by
  have each : ∀ leap, ∀ place < 12, 28 ≤ (monthLengths leap).getD place 31 := by decide
  exact each _ _ (by omega)

theorem spanLength_december {index : Int} (december : index % 12 = 11) : spanLength index = 31 := by
  have each : ∀ leap, (monthLengths leap).getD 11 31 = 31 := by decide
  rw [spanLength, december]
  exact each _

theorem monthIndex_monthStart_add (index : Int) {place : Nat} (first : 1 ≤ place)
    (last : place ≤ 31) : monthIndex (monthStart index + (place - 1)) =
      if place ≤ spanLength index then index else index + 1 := by
  have next := monthStart_succ index
  split
  next fits => exact monthIndex_eq (by omega) (by omega)
  next beyond =>
    have afterNext := monthStart_succ (index + 1)
    have short := le_spanLength index
    have long := le_spanLength (index + 1)
    exact monthIndex_eq (by omega) (by omega)

theorem bounds_of_isSupportedYear {year : Int} (supported : isSupportedYear year = true) :
    -262143 ≤ year ∧ year ≤ 262142 := by
  rwa [isSupportedYear, minYear, maxYear, Bool.and_eq_true, decide_eq_true_eq,
    decide_eq_true_eq] at supported

theorem isSupported_iff_monthIndex {day : Int} :
    isSupported day = true ↔ isSupportedYear (monthIndex day / 12) = true := by
  rw [isSupported_iff, yearOf_eq]

theorem isSupported_monthStart_add {index : Int} (supported : isSupportedYear (index / 12) = true)
    {place : Nat} (first : 1 ≤ place) (last : place ≤ 31) :
    isSupported (monthStart index + (place - 1)) = true := by
  rw [isSupported_iff_monthIndex, monthIndex_monthStart_add index first last]
  split
  next => exact supported
  next beyond =>
    have notDecember : index % 12 ≠ 11 := fun december => by
      rw [spanLength_december december] at beyond
      exact beyond last
    have sameYear : (index + 1) / 12 = index / 12 := by omega
    rwa [sameYear]

/-- The day so many months later, where a day past the end of its month runs on into the next. -/
def monthsLater (day months : Int) : Int :=
  monthStart (monthIndex day + months) + (dayOfMonth day - 1)

theorem monthsLater_zero (day : Int) : monthsLater day 0 = day := by
  rw [monthsLater, Int.add_zero, monthStart_add_dayOfMonth]

theorem isSupported_monthsLater {day months : Int}
    (supported : isSupportedYear ((monthIndex day + months) / 12) = true) :
    isSupported (monthsLater day months) = true :=
  isSupported_monthStart_add supported (monthDay_spec day).2.1.1 (dayOfMonth_le day)

section EveryMonth
variable {day : Int} (early : dayOfMonth day ≤ 28)
include early

theorem monthIndex_monthsLater (months : Int) :
    monthIndex (monthsLater day months) = monthIndex day + months := by
  have first := (monthDay_spec day).2.1.1
  have long := le_spanLength (monthIndex day + months)
  rw [monthsLater, monthIndex_monthStart_add _ first (by omega), if_pos (by omega)]

theorem dayOfMonth_monthsLater (months : Int) :
    dayOfMonth (monthsLater day months) = dayOfMonth day := by
  have told := monthStart_add_dayOfMonth (monthsLater day months)
  have placed : monthsLater day months =
      monthStart (monthIndex day + months) + (dayOfMonth day - 1) := rfl
  rw [monthIndex_monthsLater early] at told
  omega

theorem monthsLater_monthsLater (first second : Int) :
    monthsLater (monthsLater day first) second = monthsLater day (first + second) := by
  rw [monthsLater, monthIndex_monthsLater early, dayOfMonth_monthsLater early, Int.add_assoc,
    ← monthsLater]

end EveryMonth

end ConfigExpr.Calendar
