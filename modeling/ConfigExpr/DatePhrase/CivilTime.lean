import ConfigExpr.Calendar.Day
import ConfigExpr.DatePhrase.Names
import ConfigExpr.DatePhrase.Scan

/-!
Complete dates with time and offset, in the form of RFC 3339 and in that of RFC 2822. Both denote an
instant by themselves. A leap second counts as the second before it.
-/
namespace ConfigExpr.DatePhrase
open Text Calendar

structure CivilTime where
  year : Int
  month : Nat
  day : Nat
  hour : Nat
  minute : Nat
  second : Nat
  offset : Int
deriving DecidableEq, Repr

namespace CivilTime

/-- The date is in the calendar, the clock runs to 23:59:60, and the offset is below a day. -/
def isValid (t : CivilTime) : Bool :=
  isSupportedYear t.year && 1 ≤ t.month && t.month ≤ 12 && 1 ≤ t.day &&
    t.day ≤ monthLength t.year t.month && t.hour < 24 && t.minute < 60 && t.second ≤ 60 &&
    t.offset.natAbs < 86400

def dayNumber (t : CivilTime) : Int :=
  Calendar.dayNumber t.year t.month t.day

def instant (t : CivilTime) : Int :=
  t.dayNumber * 86400 + t.hour * 3600 + t.minute * 60 + min t.second 59 - t.offset

def instant? (t : CivilTime) : Option Int :=
  if t.isValid && isSupportedInstant t.instant then some t.instant else none

end CivilTime

def fixedNumber (count : Nat) : Scan Nat := do
  let digits ← Scan.exactly count isAsciiDigit
  return decimalValue digits

def minuteNumber : Scan Nat := do
  let minutes ← fixedNumber 2
  Scan.require (minutes < 60)
  return minutes

namespace Rfc3339

def isSeparator (c : Char) : Bool :=
  c == 'T' || c == 't' || c == ' '

/-- Plus is east; hyphen and minus sign are west. -/
def sign : Scan Int := do
  let c ← Scan.one fun c => c == '+' || c == '-' || c == '\u2212'
  return if c == '+' then 1 else -1

def numericOffset : Scan Int := do
  let direction ← sign
  let hours ← fixedNumber 2
  Scan.char ':'
  let minutes ← minuteNumber
  return direction * (hours * 3600 + minutes * 60)

def offset : Scan Int :=
  Scan.firstOf [(Scan.one fun c => c == 'Z' || c == 'z') >>= fun _ => pure 0, numericOffset]

/-- A fraction of a second, which is dropped. -/
def fraction : Scan Unit
  | '.' :: rest => (Scan.some1 isAsciiDigit >>= fun _ => pure ()) rest
  | text => some ((), text)

def scan : Scan CivilTime := do
  let year ← fixedNumber 4
  Scan.char '-'
  let month ← fixedNumber 2
  Scan.char '-'
  let day ← fixedNumber 2
  let _ ← Scan.one isSeparator
  let hour ← fixedNumber 2
  Scan.char ':'
  let minute ← fixedNumber 2
  Scan.char ':'
  let second ← fixedNumber 2
  fraction
  let offset ← offset
  return ⟨year, month, day, hour, minute, second, offset⟩

def parse? (text : List Char) : Option Int :=
  match scan text with
  | some (t, []) => t.instant?
  | _ => none

end Rfc3339

namespace Rfc2822

/-- Three ASCII letters of either case that are in a list of names, by their index. -/
def abbreviation (names : List String) : Scan Nat := do
  let text ← Scan.exactly 3 fun _ => true
  Scan.value (names.findIdx? fun name => name.toList == text.map Char.toLower)

/-- A weekday is followed by a comma at once; a text may also do without a weekday. -/
def weekday : Scan (Option Nat)
  | text =>
    match abbreviation weekdayAbbreviations text with
    | some (day, ',' :: rest) => some (some day, rest)
    | some _ => none
    | none => some (none, text)

/-- Two digits stand for 1950 to 2049, three for years after 1900. -/
def fullYear (digits : List Char) : Nat :=
  let year := decimalValue digits
  match digits.length with
  | 2 => if year < 50 then year + 2000 else year + 1900
  | 3 => year + 1900
  | _ => year

def year : Scan Nat := do
  let digits ← Scan.some1 isAsciiDigit
  Scan.require (2 ≤ digits.length)
  return fullYear digits

/-- Seconds stand behind a colon and may be left out. -/
def seconds : Scan Nat
  | text =>
    match (do let _ ← Scan.blanks; Scan.char ':' : Scan Unit) text with
    | some ((), rest) => fixedNumber 2 rest
    | none => some (0, text)

/-- The hours east of UTC of a named zone; single letters but `j` stand for no offset. -/
def zoneHours? (name : List Char) : Option Int :=
  match String.ofList (name.map Char.toLower) with
  | "gmt" | "ut" => some 0
  | "edt" => some (-4)
  | "est" | "cdt" => some (-5)
  | "cst" | "mdt" => some (-6)
  | "mst" | "pdt" => some (-7)
  | "pst" => some (-8)
  | "j" => none
  | _ => if name.length = 1 then some 0 else none

def numericZone : Scan Int := do
  let c ← Scan.one fun c => c == '+' || c == '-'
  let hours ← fixedNumber 2
  let minutes ← minuteNumber
  let magnitude : Int := hours * 3600 + minutes * 60
  return if c == '-' then -magnitude else magnitude

def zone : Scan Int
  | text =>
    match Scan.some1 Char.isAlpha text with
    | some (name, rest) => (zoneHours? name).map fun hours => (hours * 3600, rest)
    | none => numericZone text

/-- The rest behind the comment that is open `depth` deep; a backslash takes the next character
along. -/
def closeComment : (depth : Nat) → List Char → Option (List Char)
  | _, [] => none
  | _, ['\\'] => none
  | depth, '\\' :: _ :: rest => closeComment depth rest
  | depth, '(' :: rest => closeComment (depth + 1) rest
  | 0, ')' :: rest => some rest
  | depth + 1, ')' :: rest => closeComment depth rest
  | depth, _ :: rest => closeComment depth rest

/-- Whether a text consists of comments, each with blanks before it. Every comment has at least two
characters, so as many steps as characters are enough. -/
def isComments : (steps : Nat) → List Char → Bool
  | _, [] => true
  | 0, _ => false
  | steps + 1, text =>
    match stripStart isBlank text with
    | '(' :: rest =>
      match closeComment 0 rest with
      | some rest => isComments steps rest
      | none => false
    | _ => false

def scan : Scan (Option Nat × CivilTime) := do
  let _ ← Scan.blanks
  let weekday ← weekday
  let _ ← Scan.blanks
  let day ← Scan.upTo 2 isAsciiDigit
  let _ ← Scan.blanks1
  let month ← abbreviation monthAbbreviations
  let _ ← Scan.blanks1
  let year ← year
  let _ ← Scan.blanks1
  let hour ← fixedNumber 2
  let _ ← Scan.blanks
  Scan.char ':'
  let _ ← Scan.blanks
  let minute ← fixedNumber 2
  let second ← seconds
  let _ ← Scan.blanks1
  let offset ← zone
  return (weekday, ⟨year, month + 1, decimalValue day, hour, minute, second, offset⟩)

/-- The instant of a text whose weekday, if there is one, fits its date. -/
def parse? (text : List Char) : Option Int :=
  match scan text with
  | some ((weekday, t), rest) =>
    if isComments rest.length rest && weekday.getD (Calendar.weekday t.dayNumber) ==
        Calendar.weekday t.dayNumber then t.instant?
    else none
  | none => none

end Rfc2822

end ConfigExpr.DatePhrase
