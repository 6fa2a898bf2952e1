/-!
English names of months, weekdays and units of time, in lower case.
-/
namespace ConfigExpr.DatePhrase

def monthAbbreviations : List String :=
  ["jan", "feb", "mar", "apr", "may", "jun", "jul", "aug", "sep", "oct", "nov", "dec"]

def weekdayAbbreviations : List String :=
  ["mon", "tue", "wed", "thu", "fri", "sat", "sun"]

/-- The month, counted from one, whose abbreviation starts a word. -/
def monthOfWord? (word : List Char) : Option Nat :=
  (monthAbbreviations.findIdx? fun name => name.toList == word.take 3).map (· + 1)

/-- The days since Monday of the weekday that a word names. -/
def weekdayOfWord? : String → Option Nat
  | "monday" | "mon" => some 0
  | "tuesday" | "tue" | "tues" => some 1
  | "wednesday" | "wed" => some 2
  | "thursday" | "thu" | "thur" | "thurs" => some 3
  | "friday" | "fri" => some 4
  | "saturday" | "sat" => some 5
  | "sunday" | "sun" => some 6
  | _ => none

inductive TimeUnit where
  | second
  | minute
  | hour
  | day
  | week
  | fortnight
  | month
  | year
deriving DecidableEq, Repr

def TimeUnit.ofWord? : String → Option TimeUnit
  | "sec" | "secs" | "second" | "seconds" => some .second
  | "min" | "mins" | "minute" | "minutes" => some .minute
  | "hour" | "hours" => some .hour
  | "day" | "days" => some .day
  | "week" | "weeks" => some .week
  | "fortnight" | "fortnights" => some .fortnight
  | "month" | "months" => some .month
  | "year" | "years" => some .year
  | _ => none

end ConfigExpr.DatePhrase
