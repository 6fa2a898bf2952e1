import ConfigExpr.Calendar.Day
import ConfigExpr.Text.Numeral

/-!
Dates written by format letters. Each letter stands for a part of the local date and time or of the
offset, `c` and `r` stand for whole formats, a backslash writes the next character as it is, and any
other character stands for itself.
-/
namespace ConfigExpr.Calendar

structure LocalTime where
  instant : Int
  offset : Int
deriving DecidableEq, Repr

namespace LocalTime

def seconds (t : LocalTime) : Int :=
  t.instant + t.offset

def day (t : LocalTime) : Int :=
  dayOf t.seconds

def hour (t : LocalTime) : Nat :=
  secondOfDay t.seconds / 3600

def minute (t : LocalTime) : Nat :=
  secondOfDay t.seconds / 60 % 60

def second (t : LocalTime) : Nat :=
  secondOfDay t.seconds % 60

end LocalTime

namespace DateFormat
open Numeral

def dayNames : List String :=
  ["Monday", "Tuesday", "Wednesday", "Thursday", "Friday", "Saturday", "Sunday"]

def monthNames : List String :=
  ["January", "February", "March", "April", "May", "June", "July", "August", "September",
    "October", "November", "December"]

def dayName (day : Int) : List Char :=
  (dayNames.getD (weekday day) "").toList

def monthName (day : Int) : List Char :=
  (monthNames.getD (monthOf day - 1) "").toList

def ordinalSuffix (n : Nat) : List Char :=
  if 11 ≤ n % 100 && n % 100 ≤ 13 then ['t', 'h']
  else
    match n % 10 with
    | 1 => ['s', 't']
    | 2 => ['n', 'd']
    | 3 => ['r', 'd']
    | _ => ['t', 'h']

def clockHour (hour : Nat) : Nat :=
  if hour % 12 = 0 then 12 else hour % 12

/-- The thousandth of the day at one hour east of UTC. -/
def beat (instant : Int) : Nat :=
  ((instant + 3600) % 86400 * 10 / 864).toNat

/-- An offset as sign, hours and minutes with a separator between them. -/
def offsetText (offset : Int) (separator : List Char) : List Char :=
  (if offset < 0 then '-' else '+') :: padded 2 (offset.natAbs / 3600) ++ separator ++
    padded 2 (offset.natAbs % 3600 / 60)

def zoneName (offset : Int) : List Char :=
  if offset = 0 then ['U', 'T', 'C'] else offsetText offset [':']

def letter (t : LocalTime) (c : Char) : List Char :=
  match c with
  | 'd' => padded 2 (dayOfMonth t.day)
  | 'D' => (dayName t.day).take 3
  | 'j' => ofNat (dayOfMonth t.day)
  | 'l' => dayName t.day
  | 'N' => ofNat (weekday t.day + 1)
  | 'S' => ordinalSuffix (dayOfMonth t.day)
  | 'w' => ofNat ((weekday t.day + 1) % 7)
  | 'z' => ofNat (dayOfYear t.day)
  | 'W' => padded 2 (weekOfYear t.day)
  | 'F' => monthName t.day
  | 'm' => padded 2 (monthOf t.day)
  | 'M' => (monthName t.day).take 3
  | 'n' => ofNat (monthOf t.day)
  | 't' => ofNat (monthLength (yearOf t.day) (monthOf t.day))
  | 'L' =>
    if isLeapYear (yearOf t.day) && isSupportedYear (yearOf t.day) then ['1'] else ['0']
  | 'o' => ofInt (weekYear t.day)
  | 'Y' => ofInt (yearOf t.day)
  | 'y' => padded 2 (yearOf t.day % 100).toNat
  | 'a' => if t.hour < 12 then ['a', 'm'] else ['p', 'm']
  | 'A' => if t.hour < 12 then ['A', 'M'] else ['P', 'M']
  | 'B' => padded 3 (beat t.instant)
  | 'g' => ofNat (clockHour t.hour)
  | 'G' => ofNat t.hour
  | 'h' => padded 2 (clockHour t.hour)
  | 'H' => padded 2 t.hour
  | 'i' => padded 2 t.minute
  | 's' => padded 2 t.second
  | 'u' => ['0', '0', '0', '0', '0', '0']
  | 'v' => ['0', '0', '0']
  | 'e' | 'T' => zoneName t.offset
  | 'I' => ['0']
  | 'O' => offsetText t.offset []
  | 'P' => offsetText t.offset [':']
  | 'p' => if t.offset = 0 then ['Z'] else offsetText t.offset [':']
  | 'Z' => ofInt t.offset
  | 'U' => ofInt t.instant
  | other => [other]

/-- Replaces each character that no backslash precedes; a backslash at the end is dropped. -/
def expand (replace : Char → List Char) : List Char → List Char
  | [] => []
  | ['\\'] => []
  | '\\' :: c :: rest => c :: expand replace rest
  | c :: rest => replace c ++ expand replace rest

def isoFormat : String :=
  "Y-m-d\\TH:i:sP"

def mailFormat : String :=
  "D, d M Y H:i:s O"

def composite (t : LocalTime) (c : Char) : List Char :=
  if c = 'c' then expand (letter t) isoFormat.toList
  else if c = 'r' then expand (letter t) mailFormat.toList
  else letter t c

def format (pattern : String) (t : LocalTime) : String :=
  String.ofList (expand (composite t) pattern.toList)

end DateFormat

end ConfigExpr.Calendar
