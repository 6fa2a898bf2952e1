/-!
Days of the proleptic Gregorian calendar. A day is its number, counted from 1970-01-01; year, month,
day of the month and weekday are read off the number. Dates are supported from the first day of the
year -262143 to the last day of the year 262142.
-/
namespace ConfigExpr.Calendar

def isLeapYear (year : Int) : Bool :=
  year % 4 == 0 && (year % 100 != 0 || year % 400 == 0)

def monthLengths (leap : Bool) : List Nat :=
  [31, if leap then 29 else 28, 31, 30, 31, 30, 31, 31, 30, 31, 30, 31]

/-- The days of a month, numbered from one. -/
def monthLength (year : Int) (month : Nat) : Nat :=
  (monthLengths (isLeapYear year)).getD (month - 1) 31

def daysBeforeMonth (year : Int) (month : Nat) : Nat :=
  ((monthLengths (isLeapYear year)).take (month - 1)).foldr (· + ·) 0

/-- The number of the first day of a year: a leap day is counted for each year before it that has
one. -/
def yearStart (year : Int) : Int :=
  365 * (year - 1970) + (year - 1) / 4 - (year - 1) / 100 + (year - 1) / 400 - 477

/-- The number of a day. A day past the end of the month runs on into the next. -/
def dayNumber (year : Int) (month day : Nat) : Int :=
  yearStart year + daysBeforeMonth year month + day - 1

/-- The year of a day: an estimate by the mean length of a year is off by one at most. -/
def yearOf (day : Int) : Int :=
  let estimate := 1970 + day * 400 / 146097
  if day < yearStart estimate then estimate - 1
  else if yearStart (estimate + 1) ≤ day then estimate + 1
  else estimate

def dayOfYear (day : Int) : Nat :=
  (day - yearStart (yearOf day)).toNat

/-- Finds the month and the day of the month, counted from one, where months of the given lengths
follow each other from `month` on. -/
def locate (month : Nat) : List Nat → Nat → Nat × Nat
  | [], rest => (month, rest + 1)
  | length :: lengths, rest =>
    if rest < length then (month, rest + 1) else locate (month + 1) lengths (rest - length)

def monthDay (day : Int) : Nat × Nat :=
  locate 1 (monthLengths (isLeapYear (yearOf day))) (dayOfYear day)

def monthOf (day : Int) : Nat :=
  (monthDay day).1

def dayOfMonth (day : Int) : Nat :=
  (monthDay day).2

/-- The days since the last Monday. -/
def weekday (day : Int) : Nat :=
  ((day + 3) % 7).toNat

/-- The Thursday of the week of a day; its year is the year of the week. -/
def thursday (day : Int) : Int :=
  day - weekday day + 3

def weekYear (day : Int) : Int :=
  yearOf (thursday day)

/-- The number of the week in its year, counted from one. -/
def weekOfYear (day : Int) : Nat :=
  dayOfYear (thursday day) / 7 + 1

def minYear : Int :=
  -262143

def maxYear : Int :=
  262142

def isSupportedYear (year : Int) : Bool :=
  minYear ≤ year && year ≤ maxYear

def isSupported (day : Int) : Bool :=
  yearStart minYear ≤ day && day < yearStart (maxYear + 1)

def supported? (day : Int) : Option Int :=
  if isSupported day then some day else none

def daySeconds : Int :=
  86400

/-- The day of an instant, which is given in seconds since 1970-01-01. -/
def dayOf (seconds : Int) : Int :=
  seconds / daySeconds

def secondOfDay (seconds : Int) : Nat :=
  (seconds % daySeconds).toNat

def isSupportedInstant (seconds : Int) : Bool :=
  isSupported (dayOf seconds)

end ConfigExpr.Calendar
