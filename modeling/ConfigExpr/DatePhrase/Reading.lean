import ConfigExpr.Calendar.Day
import ConfigExpr.DatePhrase.Token

/-!
What a date phrase says, collected from its tokens, and the instant it denotes. A phrase gives each
of date, time, offset, timestamp and weekday at most once; shifts add up. The instant is found in a
fixed order: the date given or that of the base, shifted by months, moved to an edge of its month,
moved to a weekday, and then the time of day with the shifts of fixed length added. Before all of
this the base is taken to local time, which the calendar may not have.
-/
namespace ConfigExpr.DatePhrase
open Calendar

def clamp (n : Int) : Int :=
  max (-2 ^ 63) (min n (2 ^ 63 - 1))

def within64? (n : Int) : Option Int :=
  if -2 ^ 63 ≤ n && n < 2 ^ 63 then some n else none

structure Shift where
  years : Int
  months : Int
  days : Int
  hours : Int
  minutes : Int
  seconds : Int
deriving DecidableEq, Repr

namespace Shift

def none : Shift :=
  ⟨0, 0, 0, 0, 0, 0⟩

def add (s : Shift) (unit : TimeUnit) (amount : Int) : Shift :=
  match unit with
  | .second => { s with seconds := clamp (s.seconds + amount) }
  | .minute => { s with minutes := clamp (s.minutes + amount) }
  | .hour => { s with hours := clamp (s.hours + amount) }
  | .day => { s with days := clamp (s.days + amount) }
  | .week => { s with days := clamp (s.days + clamp (7 * amount)) }
  | .fortnight => { s with days := clamp (s.days + clamp (14 * amount)) }
  | .month => { s with months := clamp (s.months + amount) }
  | .year => { s with years := clamp (s.years + amount) }

def negate (s : Shift) : Shift :=
  ⟨clamp (-s.years), clamp (-s.months), clamp (-s.days), clamp (-s.hours), clamp (-s.minutes),
    clamp (-s.seconds)⟩

def totalMonths? (s : Shift) : Option Int := do
  let months ← within64? (12 * s.years)
  within64? (months + s.months)

/-- The seconds of the units of fixed length, if every step has 64 bits. -/
def totalSeconds? (s : Shift) : Option Int := do
  let days ← within64? (86400 * s.days)
  let hours ← within64? (3600 * s.hours)
  let total ← within64? (days + hours)
  let minutes ← within64? (60 * s.minutes)
  let total ← within64? (total + minutes)
  within64? (total + s.seconds)

end Shift

structure GivenDate where
  year : Option Nat
  month : Nat
  day : Nat
deriving DecidableEq, Repr

structure Reading where
  date : Option GivenDate
  /-- Seconds since midnight. -/
  time : Option Nat
  offset : Option Int
  timestamp : Option Int
  /-- Without a time the day starts at midnight. -/
  atMidnight : Bool
  shift : Shift
  weekday : Option (Nat × Direction)
  edge : Option MonthEdge
deriving DecidableEq, Repr

namespace Reading

def empty : Reading :=
  ⟨none, none, none, none, false, .none, none, none⟩

def setDate (r : Reading) (year : Option Nat) (month day : Nat) : Option Reading :=
  if 1 ≤ month && month ≤ 12 && 1 ≤ day && day ≤ 31 && r.date.isNone then
    some { r with date := some ⟨year, month, day⟩ }
  else none

def hourOfDay? (hour : Nat) : Option Half → Option Nat
  | none => if hour < 24 then some hour else none
  | some half =>
    if 1 ≤ hour && hour ≤ 12 then
      some (hour % 12 + match half with | .am => 0 | .pm => 12)
    else none

def setTime (r : Reading) (hour minute second : Nat) (half : Option Half) : Option Reading := do
  let hour ← hourOfDay? hour half
  if minute < 60 && second < 60 && r.time.isNone then
    some { r with time := some (hour * 3600 + minute * 60 + second) }
  else none

def setWeekday (r : Reading) (day : Nat) (direction : Direction) : Option Reading :=
  if r.weekday.isNone then
    some { r with weekday := some (day, direction), atMidnight := true }
  else none

def setOffset (r : Reading) (seconds : Int) : Option Reading :=
  if r.offset.isNone && seconds.natAbs < 86400 then some { r with offset := some seconds }
  else none

def setTimestamp (r : Reading) (seconds : Int) : Option Reading :=
  if r.timestamp.isNone then some { r with timestamp := some seconds } else none

/-- Takes in a token, unless it gives again what is given. -/
def add (r : Reading) : Token → Option Reading
  | .timestamp seconds => r.setTimestamp seconds
  | .date year month day => r.setDate year month day
  | .time hour minute second half => r.setTime hour minute second half
  | .shift unit amount => some { r with shift := r.shift.add unit amount }
  | .ago => some { r with shift := r.shift.negate }
  | .now => some r
  | .dayStart days => some { r with atMidnight := true, shift := r.shift.add .day days }
  | .monthEdge edge => some { r with edge := some edge }
  | .weekday day direction => r.setWeekday day direction
  | .offset seconds => r.setOffset seconds

def ofTokens? (tokens : List Token) : Option Reading :=
  tokens.foldlM add empty

end Reading

/-- A day of a month, where days past its end run on; the first of the month and the day itself
have to be supported. -/
def dayInMonth? (year : Int) (month day : Nat) : Option Int :=
  if isSupportedYear year then supported? (dayNumber year month 1 + (day - 1)) else none

def addMonths? (day months : Int) : Option Int := do
  let index ← within64? (12 * yearOf day + (monthOf day - 1) + months)
  dayInMonth? (index / 12) (index % 12 + 1).toNat (dayOfMonth day)

def toEdge (day : Int) : MonthEdge → Int
  | .first => dayNumber (yearOf day) (monthOf day) 1
  | .last => dayNumber (yearOf day) (monthOf day) (monthLength (yearOf day) (monthOf day))

/-- The days from a day to a weekday, both counted from Monday. -/
def daysToWeekday (current target : Nat) : Direction → Int
  | .this => ((target : Int) - current) % 7
  | .next => if current = target then 7 else ((target : Int) - current) % 7
  | .last => if current = target then -7 else -(((current : Int) - target) % 7)

def toWeekday? (day : Int) (target : Nat) (direction : Direction) : Option Int :=
  supported? (day + daysToWeekday (weekday day) target direction)

def supportedInstant? (seconds : Int) : Option Int :=
  if isSupportedInstant seconds then some seconds else none

inductive NoInstant where
  | notUnderstood
  /-- The calendar ends before the local time that a phrase is read at. The program stops here. -/
  | noLocalTime
deriving DecidableEq, Repr

def understood {α : Type} : Option α → Except NoInstant α
  | some a => .ok a
  | none => .error .notUnderstood

/-- The seconds of local time of an instant. -/
def localTime (instant zone : Int) : Except NoInstant Int :=
  if isSupportedInstant instant then
    if isSupportedInstant (instant + zone) then .ok (instant + zone) else .error .noLocalTime
  else .error .notUnderstood

/-- The instant of what is denoted at the local time of another one. -/
def readAt (instant zone : Int) (denotes : Int → Option Int) : Except NoInstant Int := do
  let here ← localTime instant zone
  let shown ← understood (denotes here)
  return shown - zone

namespace Reading
variable (r : Reading)

/-- The day given, or today. -/
def startDay? (today : Int) : Option Int :=
  match r.date with
  | some d => dayInMonth? (d.year.elim (yearOf today) fun year => year) d.month d.day
  | none => some today

def shiftedDay? (day : Int) : Option Int := do
  let months ← r.shift.totalMonths?
  if months = 0 then some day else addMonths? day months

/-- The edge of the month of a day, and then the weekday counted from there. -/
def movedDay? (day : Int) : Option Int :=
  let day := match r.edge with
    | some edge => toEdge day edge
    | none => day
  match r.weekday with
  | some (target, direction) => toWeekday? day target direction
  | none => some day

def day? (today : Int) : Option Int := do
  let day ← r.startDay? today
  let day ← r.shiftedDay? day
  r.movedDay? day

/-- The second of the day that shifts are added to, if the phrase is read at the second `now`. -/
def clock (now : Nat) : Nat :=
  match r.time with
  | some time => time
  | none => if r.date.isSome || r.atMidnight then 0 else now

/-- The seconds of local time that a reading denotes when it is read at others. -/
def local? (here : Int) : Option Int := do
  let day ← r.day? (dayOf here)
  let seconds ← r.shift.totalSeconds?
  supportedInstant? (day * 86400 + r.clock (secondOfDay here) + seconds)

/-- The offset that a reading gives, or that of UTC for a timestamp. -/
def zone (offset : Int) : Int :=
  r.offset.getD (if r.timestamp.isSome then 0 else offset)

/-- The instant of a reading, where local times without an offset are read at `offset`. A timestamp
takes the place of the base. -/
def resolve (base offset : Int) : Except NoInstant Int :=
  readAt (r.timestamp.getD base) (r.zone offset) r.local?

end Reading

end ConfigExpr.DatePhrase
