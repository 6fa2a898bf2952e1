import ConfigExpr.Calendar.DateFormat

/-!
A day is told by its year, month and day of the month, and an instant by its day and the time on the
clock: putting the parts together again gives the day and the instant back.
-/
namespace ConfigExpr.Calendar

theorem isLeapYear_iff {year : Int} :
    isLeapYear year = true ↔ year % 4 = 0 ∧ (year % 100 ≠ 0 ∨ year % 400 = 0) := by
  simp [isLeapYear]

theorem yearStart_succ (year : Int) :
    yearStart (year + 1) = yearStart year + if isLeapYear year then 366 else 365 := by
  simp only [yearStart, isLeapYear_iff]
  omega

theorem yearStart_mono {year later : Int} (le : year ≤ later) :
    yearStart year ≤ yearStart later := by
  simp only [yearStart]
  omega

theorem yearOf_spec (day : Int) :
    yearStart (yearOf day) ≤ day ∧ day < yearStart (yearOf day + 1) := by
  have lower : yearStart (1970 + day * 400 / 146097 - 1) ≤ day := by
    simp only [yearStart]
    omega
  have upper : day < yearStart (1970 + day * 400 / 146097 + 1 + 1) := by
    simp only [yearStart]
    omega
  simp only [yearOf]
  generalize 1970 + day * 400 / 146097 = estimate at lower upper
  split
  · next before => exact ⟨lower, by rwa [Int.sub_add_cancel]⟩
  · next notBefore =>
    split
    · next after => exact ⟨after, upper⟩
    · next notAfter => exact ⟨Int.not_lt.mp notBefore, Int.not_le.mp notAfter⟩

theorem sum_monthLengths (leap : Bool) :
    (monthLengths leap).foldr (· + ·) 0 = if leap then 366 else 365 := by
  cases leap <;> rfl

theorem dayOfYear_lt (day : Int) :
    dayOfYear day < (monthLengths (isLeapYear (yearOf day))).foldr (· + ·) 0 := by
  have spec := yearOf_spec day
  rw [yearStart_succ] at spec
  rw [sum_monthLengths, dayOfYear]
  generalize isLeapYear (yearOf day) = leap at spec ⊢
  cases leap with
  | false | true =>
    simp only [Bool.false_eq_true, ↓reduceIte] at spec ⊢
    omega

theorem locate_spec {lengths : List Nat} {rest : Nat} (inside : rest < lengths.foldr (· + ·) 0)
    (month : Nat) :
    ∃ index length before, lengths[index]? = some length ∧
      (lengths.take index).foldr (· + ·) 0 = before ∧
      locate month lengths rest = (month + index, rest - before + 1) ∧
      before ≤ rest ∧ rest - before < length := by
  induction lengths generalizing month rest with
  | nil => cases inside
  | cons length lengths ih =>
    rw [locate]
    split
    · next within => exact ⟨0, length, 0, rfl, rfl, rfl, Nat.zero_le _, within⟩
    · next beyond =>
      have later : rest - length < lengths.foldr (· + ·) 0 := by
        rw [List.foldr_cons] at inside
        omega
      obtain ⟨index, found, before, at_index, sum, located, low, high⟩ := ih later (month + 1)
      refine ⟨index + 1, found, length + before, at_index, ?_, ?_, by omega, by omega⟩
      · rw [List.take_succ_cons, List.foldr_cons, sum]
      · rw [located]
        congr 1
        · omega
        · omega

theorem monthLength_le (year : Int) (month : Nat) : monthLength year month ≤ 31 := by
  rw [monthLength, List.getD_eq_getElem?_getD]
  cases at_month : (monthLengths (isLeapYear year))[month - 1]? with
  | none => exact Nat.le_refl 31
  | some length =>
    have member := List.mem_of_getElem? at_month
    revert member
    cases isLeapYear year <;> simp only [monthLengths, List.mem_cons, List.not_mem_nil, or_false,
      Bool.false_eq_true, ↓reduceIte, Option.getD_some] <;> omega

theorem monthDay_spec (day : Int) :
    (1 ≤ monthOf day ∧ monthOf day ≤ 12) ∧
    (1 ≤ dayOfMonth day ∧ dayOfMonth day ≤ monthLength (yearOf day) (monthOf day)) ∧
    dayNumber (yearOf day) (monthOf day) (dayOfMonth day) = day := by
  obtain ⟨index, length, before, at_index, sum, located, low, high⟩ :=
    locate_spec (dayOfYear_lt day) 1
  have few : index < (monthLengths (isLeapYear (yearOf day))).length :=
    (List.getElem?_eq_some_iff.mp at_index).1
  have month : monthOf day = index + 1 := by
    rw [monthOf, monthDay, located, Nat.add_comm]
  have date : dayOfMonth day = dayOfYear day - before + 1 := by
    rw [dayOfMonth, monthDay, located]
  have long : monthLength (yearOf day) (index + 1) = length := by
    rw [monthLength, Nat.add_sub_cancel, List.getD_eq_getElem?_getD, at_index, Option.getD_some]
  have start : daysBeforeMonth (yearOf day) (index + 1) = before := by
    rw [daysBeforeMonth, Nat.add_sub_cancel, sum]
  have year := (yearOf_spec day).1
  simp only [monthLengths, List.length_cons, List.length_nil] at few
  rw [month, date, long, dayNumber, start]
  refine ⟨by omega, by omega, ?_⟩
  rw [dayOfYear] at low ⊢
  omega

theorem dayNumber_first_add (day : Int) :
    dayNumber (yearOf day) (monthOf day) 1 + ((dayOfMonth day : Int) - 1) = day := by
  obtain ⟨-, -, told⟩ := monthDay_spec day
  rw [dayNumber] at told ⊢
  omega

theorem dayOfMonth_le (day : Int) : dayOfMonth day ≤ 31 :=
  Nat.le_trans (monthDay_spec day).2.1.2 (monthLength_le ..)

theorem secondOfDay_lt (seconds : Int) : secondOfDay seconds < 86400 := by
  rw [secondOfDay, daySeconds]
  omega

theorem dayOf_secondOfDay (seconds : Int) :
    dayOf seconds * 86400 + secondOfDay seconds = seconds := by
  rw [dayOf, secondOfDay, daySeconds]
  omega

theorem dayOf_add_clock (day : Int) {clock : Nat} (few : clock < 86400) :
    dayOf (day * 86400 + clock) = day := by
  rw [dayOf, daySeconds]
  omega

theorem secondOfDay_add_clock (day : Int) {clock : Nat} (few : clock < 86400) :
    secondOfDay (day * 86400 + clock) = clock := by
  rw [secondOfDay, daySeconds]
  omega

namespace LocalTime

theorem hour_lt (t : LocalTime) : t.hour < 24 := by
  have := secondOfDay_lt t.seconds
  rw [hour]
  omega

theorem minute_lt (t : LocalTime) : t.minute < 60 :=
  Nat.mod_lt _ (by decide)

theorem second_lt (t : LocalTime) : t.second < 60 :=
  Nat.mod_lt _ (by decide)

theorem clock_eq (t : LocalTime) :
    t.hour * 3600 + t.minute * 60 + t.second = secondOfDay t.seconds := by
  rw [hour, minute, second]
  omega

end LocalTime

theorem isSupported_iff {day : Int} :
    isSupported day = true ↔ isSupportedYear (yearOf day) = true := by
  have spec := yearOf_spec day
  simp only [isSupported, isSupportedYear, Bool.and_eq_true, decide_eq_true_eq]
  constructor
  · rintro ⟨low, high⟩
    refine ⟨Int.not_lt.mp fun before => ?_, Int.not_lt.mp fun after => ?_⟩
    · have := yearStart_mono (Int.add_one_le_of_lt before)
      omega
    · have := yearStart_mono (Int.add_one_le_of_lt after)
      omega
  · rintro ⟨low, high⟩
    have first := yearStart_mono low
    have last := yearStart_mono (Int.add_le_add_right high 1)
    omega

theorem isSupportedInstant_of_year_nonneg {t : LocalTime} (fixed : t.offset.natAbs < 86400)
    (low : 0 ≤ yearOf t.day) (high : yearOf t.day ≤ 9999) :
    isSupportedInstant t.instant = true := by
  have spec := yearOf_spec t.day
  have first := yearStart_mono low
  have last := yearStart_mono (Int.add_le_add_right high 1)
  rw [isSupportedInstant, isSupported, Bool.and_eq_true, decide_eq_true_eq, decide_eq_true_eq]
  generalize yearOf t.day = year at spec first last
  simp only [LocalTime.day, LocalTime.seconds, dayOf, daySeconds] at spec ⊢
  generalize yearStart year = start, yearStart (year + 1) = next at spec first last
  simp only [yearStart, minYear, maxYear] at first last ⊢
  omega

theorem isSupportedInstant_of_year {t : LocalTime} (fixed : t.offset.natAbs < 86400)
    (low : 1000 ≤ yearOf t.day) (high : yearOf t.day ≤ 9999) :
    isSupportedInstant t.instant = true :=
  isSupportedInstant_of_year_nonneg fixed (Int.le_trans (by decide) low) high

theorem bounds_of_isSupportedInstant {seconds : Int}
    (supported : isSupportedInstant seconds = true) :
    -2 ^ 43 < seconds ∧ seconds < 2 ^ 43 := by
  rw [isSupportedInstant, isSupported, Bool.and_eq_true, decide_eq_true_eq,
    decide_eq_true_eq] at supported
  simp only [dayOf, daySeconds, yearStart, minYear, maxYear] at supported
  omega

end ConfigExpr.Calendar
