import ConfigExpr.Proofs.Calendar.Months
import ConfigExpr.Proofs.DatePhrase.BoundedTokens
import ConfigExpr.Proofs.DatePhrase.FixedShifts

/-!
Readings that are put together and resolved in integers of so many bits. What a reading holds fits
the types that it is held in, every token keeps that, and then no step overflows: days and months are
counted near supported dates, and sums of shifts are clamped or checked.
-/
namespace ConfigExpr.DatePhrase
open Calendar

theorem isInt64_clamp (n : Int) : IsInt64 (clamp n) := by
  rw [IsInt64, clamp]
  omega

namespace Shift
variable {s : Shift}

theorem within64_add (within : s.Within64) (unit : TimeUnit) (amount : Int) :
    (s.add unit amount).Within64 := by
  obtain ⟨years, months, days, hours, minutes, seconds⟩ := within
  cases unit with
  | second => exact ⟨years, months, days, hours, minutes, isInt64_clamp _⟩
  | minute => exact ⟨years, months, days, hours, isInt64_clamp _, seconds⟩
  | hour => exact ⟨years, months, days, isInt64_clamp _, minutes, seconds⟩
  | day | week | fortnight => exact ⟨years, months, isInt64_clamp _, hours, minutes, seconds⟩
  | month => exact ⟨years, isInt64_clamp _, days, hours, minutes, seconds⟩
  | year => exact ⟨isInt64_clamp _, months, days, hours, minutes, seconds⟩

theorem within64_negate : s.negate.Within64 :=
  ⟨isInt64_clamp _, isInt64_clamp _, isInt64_clamp _, isInt64_clamp _, isInt64_clamp _,
    isInt64_clamp _⟩

end Shift

namespace Reading
variable {r r' : Reading}

structure IsHeld (r : Reading) : Prop where
  day : ∀ date ∈ r.date, date.day < 2 ^ 32
  offset : ∀ seconds ∈ r.offset, seconds.natAbs < 86400
  weekday : ∀ target ∈ r.weekday, target.1 < 7
  shift : r.shift.Within64

theorem isHeld_empty : empty.IsHeld where
  day _ absent := by cases absent
  offset _ absent := by cases absent
  weekday _ absent := by cases absent
  shift := by decide

theorem isHeld_of_add {token : Token} (held : r.IsHeld) (tokenHeld : token.isHeld = true)
    (added : r.add token = some r') : r'.IsHeld := by
  obtain ⟨day, offset, weekday, shift⟩ := held
  cases token with
  | timestamp seconds =>
    simp only [add, setTimestamp, Option.ite_none_right_eq_some, Option.some.injEq] at added
    exact added.2 ▸ ⟨day, offset, weekday, shift⟩
  | date year month inMonth =>
    simp only [add, setDate, Option.ite_none_right_eq_some, Option.some.injEq, Bool.and_eq_true,
      decide_eq_true_eq] at added
    obtain ⟨⟨⟨_, few⟩, -⟩, rfl⟩ := added
    have small : inMonth < 2 ^ 32 := by omega
    exact ⟨fun _ given => Option.some.inj given ▸ small, offset, weekday, shift⟩
  | time hour minute second half =>
    simp only [add, setTime, Option.bind_eq_bind, Option.bind_eq_some_iff,
      Option.ite_none_right_eq_some, Option.some.injEq] at added
    obtain ⟨_, -, -, rfl⟩ := added
    exact ⟨day, offset, weekday, shift⟩
  | shift unit amount =>
    obtain rfl := Option.some.inj added
    exact ⟨day, offset, weekday, Shift.within64_add shift unit amount⟩
  | ago =>
    obtain rfl := Option.some.inj added
    exact ⟨day, offset, weekday, Shift.within64_negate⟩
  | now | monthEdge _ =>
    obtain rfl := Option.some.inj added
    exact ⟨day, offset, weekday, shift⟩
  | dayStart days =>
    obtain rfl := Option.some.inj added
    exact ⟨day, offset, weekday, Shift.within64_add shift .day days⟩
  | weekday target direction =>
    simp only [add, setWeekday, Option.ite_none_right_eq_some, Option.some.injEq] at added
    obtain ⟨-, rfl⟩ := added
    exact ⟨day, offset, fun _ given => Option.some.inj given ▸ of_decide_eq_true tokenHeld, shift⟩
  | offset seconds =>
    simp only [add, setOffset, Option.ite_none_right_eq_some, Option.some.injEq, Bool.and_eq_true,
      decide_eq_true_eq] at added
    obtain ⟨⟨-, few⟩, rfl⟩ := added
    exact ⟨day, fun _ given => Option.some.inj given ▸ few, weekday, shift⟩

end Reading

namespace Bounded

def hourOfDay (hour : Nat) : Option Half → Bounded Nat
  | none => .ok hour
  | some half =>
    if 1 ≤ hour && hour ≤ 12 then
      unsigned 32 (hour % 12 + match half with | .am => 0 | .pm => 12)
    else .error .refused

def setTime (r : Reading) (hour minute second : Nat) (half : Option Half) : Bounded Reading := do
  let hour ← hourOfDay hour half
  ofOption (r.setTime hour minute second none)

def add (r : Reading) : Token → Bounded Reading
  | .time hour minute second half => setTime r hour minute second half
  | token => ofOption (r.add token)

def dayInMonth (year : Int) (month day : Nat) : Bounded Int :=
  if isSupportedYear year then do
    let later ← signed 64 (day - 1)
    ofOption (supported? (dayNumber year month 1 + later))
  else .error .refused

def addMonths (day months : Int) : Bounded Int := do
  let start ← checked 64 (12 * yearOf day)
  let index ← checked 64 (start + (monthOf day - 1))
  let index ← checked 64 (index + months)
  let year ← checked 32 (index / 12)
  let month ← unsigned 32 ((index % 12).toNat + 1)
  dayInMonth year month (dayOfMonth day)

def daysToWeekday (current target : Nat) : Direction → Bounded Int
  | .this => do
    let ahead ← signed 64 (target - current)
    return ahead % 7
  | .next => do
    let ahead ← signed 64 (target - current)
    return if ahead % 7 = 0 then 7 else ahead % 7
  | .last => do
    let behind ← signed 64 (current - target)
    if behind % 7 = 0 then return -7 else signed 64 (-(behind % 7))

def toWeekday (day : Int) (target : Nat) (direction : Direction) : Bounded Int := do
  let days ← daysToWeekday (weekday day) target direction
  ofOption (supported? (day + days))

def startDay (r : Reading) (today : Int) : Bounded Int :=
  match r.date with
  | some d => dayInMonth (d.year.elim (yearOf today) fun year => year) d.month d.day
  | none => .ok today

def shiftedDay (r : Reading) (day : Int) : Bounded Int := do
  let months ← ofOption r.shift.totalMonths?
  if months = 0 then .ok day else addMonths day months

def movedDay (r : Reading) (day : Int) : Bounded Int :=
  let day := match r.edge with
    | some edge => toEdge day edge
    | none => day
  match r.weekday with
  | some (target, direction) => toWeekday day target direction
  | none => .ok day

def day (r : Reading) (today : Int) : Bounded Int := do
  let day ← startDay r today
  let day ← shiftedDay r day
  movedDay r day

def localSeconds (r : Reading) (here : Int) : Bounded Int := do
  let day ← day r (dayOf here)
  let seconds ← ofOption r.shift.totalSeconds?
  ofOption (supportedInstant? (day * 86400 + r.clock (secondOfDay here) + seconds))

/-- The sum of the base and the offset is one of the calendar, not of integers: it stops the program
where the calendar ends. -/
def resolve (r : Reading) (base offset : Int) : Bounded Int := do
  let here ← ofResult (localTime (r.timestamp.getD base) (r.zone offset))
  let shown ← localSeconds r here
  checked 64 (shown - r.zone offset)

theorem setTime_eq (r : Reading) (hour minute second : Nat) (half : Option Half) :
    setTime r hour minute second half = ofOption (r.setTime hour minute second half) := by
  cases half with
  | none => rfl
  | some half =>
    by_cases twelve : (1 ≤ hour && hour ≤ 12) = true
    · have few (noon : Nat) (low : noon ≤ 12) : hour % 12 + noon < 24 := by omega
      cases half with
      | am | pm =>
        rw [setTime, hourOfDay, if_pos twelve,
          unsigned_eq_ok (Nat.lt_trans (few _ (by decide)) (by decide)), Outcome.ok_bind,
          Reading.setTime, Reading.setTime, Reading.hourOfDay?, Reading.hourOfDay?, if_pos twelve,
          if_pos (few _ (by decide))]
    · simp only [setTime, hourOfDay, Reading.setTime, Reading.hourOfDay?, if_neg twelve]
      rfl

theorem add_eq (r : Reading) (token : Token) : add r token = ofOption (r.add token) := by
  cases token with
  | time hour minute second half => exact setTime_eq r hour minute second half
  | _ => rfl

theorem dayInMonth_eq {day : Nat} (few : day < 2 ^ 32) (year : Int) (month : Nat) :
    dayInMonth year month day = ofOption (dayInMonth? year month day) := by
  rw [dayInMonth, dayInMonth?, ofOption_ite, signed_eq_ok (by omega), Outcome.ok_bind]

/-- Days that are counted in about as many as there are supported ones. -/
def IsNear (day : Int) : Prop :=
  day.natAbs < 10 ^ 9

theorem isNear_of_isSupported {day : Int} (supported : isSupported day = true) : IsNear day := by
  rw [isSupported, Bool.and_eq_true, decide_eq_true_eq, decide_eq_true_eq] at supported
  simp only [yearStart, minYear, maxYear] at supported
  rw [IsNear]
  omega

theorem isNear_of_supported? {day n : Int} (found : supported? n = some day) : IsNear day := by
  rw [supported?, Option.ite_none_right_eq_some, Option.some.injEq] at found
  exact found.2 ▸ isNear_of_isSupported found.1

theorem natAbs_yearOf_lt {day : Int} (near : IsNear day) : (yearOf day).natAbs < 10 ^ 8 := by
  rw [IsNear] at near
  simp only [yearOf]
  omega

theorem addMonths_eq {day : Int} (near : IsNear day) (months : Int) :
    addMonths day months = ofOption (addMonths? day months) := by
  have year := natAbs_yearOf_lt near
  have month := (monthDay_spec day).1
  have few : dayOfMonth day < 2 ^ 32 := Nat.lt_of_le_of_lt (dayOfMonth_le day) (by decide)
  change 1 ≤ monthOf day ∧ monthOf day ≤ 12 at month
  rw [addMonths, checked_eq_ok (by omega), Outcome.ok_bind, checked_eq_ok (by omega),
    Outcome.ok_bind, checked_eq_ofOption, addMonths?]
  refine ofOption_bind fun index _ => ?_
  have place : (index % 12).toNat + 1 = (index % 12 + 1).toNat := by omega
  by_cases supported : isSupportedYear (index / 12) = true
  · have bounds := bounds_of_isSupportedYear supported
    rw [checked_eq_ok (by omega), Outcome.ok_bind, place, unsigned_eq_ok (by omega),
      Outcome.ok_bind, dayInMonth_eq few]
  · rw [checked, dayInMonth?, if_neg supported]
    split
    next =>
      rw [Outcome.ok_bind, place, unsigned_eq_ok (by omega), Outcome.ok_bind, dayInMonth,
        if_neg supported]
      rfl
    next => rfl

theorem daysToWeekday_eq {current target : Nat} (currentHeld : current < 7)
    (targetHeld : target < 7) (direction : Direction) :
    daysToWeekday current target direction =
      .ok (DatePhrase.daysToWeekday current target direction) := by
  have ahead : signed 64 ((target : Int) - current) = .ok (target - current) :=
    signed_eq_ok (by omega)
  have behind : signed 64 ((current : Int) - target) = .ok (current - target) :=
    signed_eq_ok (by omega)
  cases direction with
  | this => rw [daysToWeekday, ahead]; rfl
  | next =>
    have same : ((target : Int) - current) % 7 = 0 ↔ current = target := by omega
    simp only [daysToWeekday, ahead, Outcome.ok_bind, DatePhrase.daysToWeekday, same]
    rfl
  | last =>
    have same : ((current : Int) - target) % 7 = 0 ↔ current = target := by omega
    simp only [daysToWeekday, behind, Outcome.ok_bind, DatePhrase.daysToWeekday, same]
    split
    next => rfl
    next => exact signed_eq_ok (by omega)

theorem toWeekday_eq {target : Nat} (held : target < 7) (day : Int) (direction : Direction) :
    toWeekday day target direction = ofOption (toWeekday? day target direction) := by
  have today : weekday day < 7 := by
    rw [weekday]
    omega
  rw [toWeekday, daysToWeekday_eq today held, Outcome.ok_bind, toWeekday?]

theorem shiftedDay_eq {day : Int} (near : IsNear day) (r : Reading) :
    shiftedDay r day = ofOption (r.shiftedDay? day) := by
  refine ofOption_bind fun months _ => ?_
  split
  next => rfl
  next => exact addMonths_eq near months

theorem isNear_of_startDay? {r : Reading} {today day : Int} (near : IsNear today)
    (found : r.startDay? today = some day) : IsNear day := by
  rw [Reading.startDay?] at found
  cases given : r.date with
  | none =>
    rw [given] at found
    exact Option.some.inj found ▸ near
  | some d =>
    rw [given] at found
    exact isNear_of_supported? (Option.ite_none_right_eq_some.mp found).2

section Held
variable {r : Reading} (held : r.IsHeld)
include held

theorem startDay_eq (today : Int) : startDay r today = ofOption (r.startDay? today) := by
  rw [startDay, Reading.startDay?]
  cases given : r.date with
  | none => rfl
  | some d => exact dayInMonth_eq (held.day d given) _ _

theorem movedDay_eq (day : Int) : movedDay r day = ofOption (r.movedDay? day) := by
  rw [movedDay, Reading.movedDay?]
  cases given : r.weekday with
  | none => rfl
  | some target => exact toWeekday_eq (held.weekday target given) _ _

theorem natAbs_zone_lt {offset : Int} (small : offset.natAbs < 86400) :
    (r.zone offset).natAbs < 86400 := by
  rw [Reading.zone]
  cases given : r.offset with
  | none =>
    rw [Option.getD_none]
    split
    next => decide
    next => exact small
  | some seconds => exact held.offset seconds given

theorem day_eq {today : Int} (near : IsNear today) : day r today = ofOption (r.day? today) := by
  rw [day, startDay_eq held]
  refine ofOption_bind fun start found => ?_
  rw [shiftedDay_eq (isNear_of_startDay? near found)]
  exact ofOption_bind fun day _ => movedDay_eq held day

theorem localSeconds_eq {here : Int} (supported : isSupportedInstant here = true) :
    localSeconds r here = ofOption (r.local? here) := by
  have bounds := bounds_of_isSupportedInstant supported
  have near : IsNear (dayOf here) := by
    rw [IsNear, dayOf, daySeconds]
    omega
  rw [localSeconds, day_eq held near]
  exact ofOption_bind fun day _ => ofOption_bind fun seconds _ => rfl

theorem resolve_eq (base : Int) {offset : Int} (small : offset.natAbs < 86400) :
    resolve r base offset = ofResult (r.resolve base offset) := by
  have few := natAbs_zone_lt held small
  rw [resolve, Reading.resolve, readAt]
  refine ofResult_bind fun here found => ?_
  obtain ⟨-, supported, rfl⟩ := localTime_eq_ok.mp found
  rw [localSeconds_eq held supported, ← ofResult_understood]
  refine ofResult_bind fun shown denoted => ?_
  have there := Reading.isSupportedInstant_of_local? (understood_eq_ok.mp denoted)
  have bounds := bounds_of_isSupportedInstant there
  exact checked_eq_ok (by omega)

theorem resolve_eq_noLocalTime (base : Int) {offset : Int} (small : offset.natAbs < 86400) :
    resolve r base offset = .error .noLocalTime ↔
      isSupportedInstant (r.timestamp.getD base) = true ∧
        isSupportedInstant (r.timestamp.getD base + r.zone offset) = false := by
  rw [resolve_eq held base small, ofResult_eq_noLocalTime, Reading.resolve, readAt_eq_noLocalTime]

end Held

end Bounded

end ConfigExpr.DatePhrase
