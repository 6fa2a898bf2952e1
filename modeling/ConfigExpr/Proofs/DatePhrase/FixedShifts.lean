import Mathlib.Data.List.Induction
import ConfigExpr.Proofs.Calendar.Civil
import ConfigExpr.Proofs.DatePhrase.Resolution

/-!
Shifts by units of fixed length. Sums are clamped field by field, and what is clamped is lost, so a
shift is the sum of its parts only where no running total leaves the 64 bits. What becomes of a
reading with such a shift is exact either way.
-/
namespace ConfigExpr.DatePhrase
open Calendar

def IsInt64 (n : Int) : Prop :=
  -2 ^ 63 ≤ n ∧ n < 2 ^ 63

instance (n : Int) : Decidable (IsInt64 n) :=
  inferInstanceAs (Decidable (_ ∧ _))

theorem clamp_eq_self {n : Int} (within : IsInt64 n) : clamp n = n := by
  obtain ⟨low, high⟩ := within
  rw [clamp]
  omega

theorem within64?_eq_some {n m : Int} : within64? n = some m ↔ IsInt64 n ∧ n = m := by
  rw [within64?, Option.ite_none_right_eq_some, Option.some.injEq, Bool.and_eq_true,
    decide_eq_true_eq, decide_eq_true_eq, IsInt64]

namespace TimeUnit

/-- The seconds of a unit, if it always has the same. -/
def seconds? : TimeUnit → Option Int
  | second => some 1
  | minute => some 60
  | hour => some 3600
  | day => some 86400
  | week => some (7 * 86400)
  | fortnight => some (14 * 86400)
  | month | year => none

/-- By what a number of units is multiplied before it is added to the field of a shift. -/
def factor : TimeUnit → Int
  | week => 7
  | fortnight => 14
  | _ => 1

end TimeUnit

namespace Shift

def addExact (s : Shift) (unit : TimeUnit) (amount : Int) : Shift :=
  match unit with
  | .second => { s with seconds := s.seconds + amount }
  | .minute => { s with minutes := s.minutes + amount }
  | .hour => { s with hours := s.hours + amount }
  | .day => { s with days := s.days + amount }
  | .week => { s with days := s.days + 7 * amount }
  | .fortnight => { s with days := s.days + 14 * amount }
  | .month => { s with months := s.months + amount }
  | .year => { s with years := s.years + amount }

structure Within64 (s : Shift) : Prop where
  years : IsInt64 s.years
  months : IsInt64 s.months
  days : IsInt64 s.days
  hours : IsInt64 s.hours
  minutes : IsInt64 s.minutes
  seconds : IsInt64 s.seconds

instance (s : Shift) : Decidable s.Within64 :=
  decidable_of_iff (IsInt64 s.years ∧ IsInt64 s.months ∧ IsInt64 s.days ∧ IsInt64 s.hours ∧
      IsInt64 s.minutes ∧ IsInt64 s.seconds)
    ⟨fun ⟨years, months, days, hours, minutes, seconds⟩ =>
        ⟨years, months, days, hours, minutes, seconds⟩,
      fun ⟨years, months, days, hours, minutes, seconds⟩ =>
        ⟨years, months, days, hours, minutes, seconds⟩⟩

/-- The seconds of the fields of fixed length. -/
def span (s : Shift) : Int :=
  86400 * s.days + 3600 * s.hours + 60 * s.minutes + s.seconds

structure HasFixedLength (s : Shift) : Prop where
  years : s.years = 0
  months : s.months = 0

variable {s : Shift} {unit : TimeUnit} {amount length : Int}

theorem add_eq_addExact (scaled : IsInt64 (unit.factor * amount))
    (within : (s.addExact unit amount).Within64) : s.add unit amount = s.addExact unit amount := by
  cases unit with
  | second => exact congrArg (fun n => { s with seconds := n }) (clamp_eq_self within.seconds)
  | minute => exact congrArg (fun n => { s with minutes := n }) (clamp_eq_self within.minutes)
  | hour => exact congrArg (fun n => { s with hours := n }) (clamp_eq_self within.hours)
  | day => exact congrArg (fun n => { s with days := n }) (clamp_eq_self within.days)
  | week | fortnight =>
    rw [TimeUnit.factor] at scaled
    rw [add, clamp_eq_self scaled]
    exact congrArg (fun n => { s with days := n }) (clamp_eq_self within.days)
  | month => exact congrArg (fun n => { s with months := n }) (clamp_eq_self within.months)
  | year => exact congrArg (fun n => { s with years := n }) (clamp_eq_self within.years)

theorem span_addExact (lasts : unit.seconds? = some length) :
    (s.addExact unit amount).span = s.span + amount * length := by
  cases unit with
  | month | year => cases lasts
  | second | minute | hour | day | week | fortnight =>
    obtain rfl := Option.some.inj lasts
    simp only [addExact, span]
    omega

theorem hasFixedLength_add (fixed : s.HasFixedLength) (lasts : unit.seconds? = some length) :
    (s.add unit amount).HasFixedLength := by
  cases unit with
  | month | year => cases lasts
  | second | minute | hour | day | week | fortnight => exact ⟨fixed.years, fixed.months⟩

theorem totalMonths?_of_hasFixedLength (fixed : s.HasFixedLength) : s.totalMonths? = some 0 := by
  rw [totalMonths?, fixed.years, fixed.months]
  rfl

theorem totalSeconds?_eq_some {total : Int} (read : s.totalSeconds? = some total) :
    total = s.span := by
  simp only [totalSeconds?, Option.bind_eq_bind, Option.bind_eq_some_iff, within64?_eq_some] at read
  obtain ⟨_, ⟨-, rfl⟩, _, ⟨-, rfl⟩, _, ⟨-, rfl⟩, _, ⟨-, rfl⟩, _, ⟨-, rfl⟩, -, rfl⟩ := read
  rfl

end Shift

namespace Reading

def ofShift (s : Shift) : Reading :=
  { empty with shift := s }

theorem day?_ofShift (s : Shift) (today : Int) :
    (ofShift s).day? today = (ofShift s).shiftedDay? today :=
  Option.bind_fun_some _

theorem resolve_ofShift {s : Shift} (fixed : s.HasFixedLength) {base offset instant : Int}
    (denotes : (ofShift s).resolve base offset = .ok instant) :
    isSupportedInstant (instant + offset) = true ∧ instant = base + s.span := by
  have there (today : Int) : (ofShift s).day? today = some today := by
    have unshifted : (ofShift s).shift.totalMonths? = some 0 :=
      Shift.totalMonths?_of_hasFixedLength fixed
    rw [day?_ofShift, shiftedDay?, unshifted]
    rfl
  rw [resolve_of_unanchored rfl rfl, readAt_eq_ok] at denotes
  obtain ⟨-, -, shown, found, rfl⟩ := denotes
  simp only [local?, there, Option.bind_eq_bind, Option.bind_some, Option.bind_eq_some_iff] at found
  obtain ⟨seconds, read, found⟩ := found
  obtain ⟨supported, rfl⟩ := supportedInstant?_eq_some.mp found
  have total : seconds = s.span := Shift.totalSeconds?_eq_some read
  have here : dayOf (base + offset) * 86400 +
      ((ofShift s).clock (secondOfDay (base + offset)) : Nat) = base + offset :=
    dayOf_secondOfDay (base + offset)
  rw [here] at supported ⊢
  refine ⟨?_, by omega⟩
  rwa [Int.sub_add_cancel]

end Reading

end ConfigExpr.DatePhrase
