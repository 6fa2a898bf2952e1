import ConfigExpr.DatePhrase.Names
import ConfigExpr.DatePhrase.Scan
import ConfigExpr.Text.Numeral

/-!
The tokens of date phrases, in lower case. Tokens overlap, so they are tried in a fixed order and
the first form that fits decides. Digits of every script shape a token but only ASCII digits have a
value: a token whose required number has none makes the whole phrase unreadable, while an optional
number without value counts as left out.
-/
namespace ConfigExpr.DatePhrase
open Text

inductive Half where
  | am
  | pm
deriving DecidableEq, Repr

inductive Direction where
  | this
  | next
  | last
deriving DecidableEq, Repr

inductive MonthEdge where
  | first
  | last
deriving DecidableEq, Repr

inductive Token where
  /-- Seconds since 1970-01-01. -/
  | timestamp (seconds : Int)
  | date (year : Option Nat) (month day : Nat)
  | time (hour minute second : Nat) (half : Option Half)
  | shift (unit : TimeUnit) (amount : Int)
  /-- Turns round all shifts so far. -/
  | ago
  | now
  /-- Midnight of a day counted from today. -/
  | dayStart (days : Int)
  | monthEdge (edge : MonthEdge)
  | weekday (day : Nat) (direction : Direction)
  /-- Seconds east of UTC. -/
  | offset (seconds : Int)
deriving DecidableEq, Repr

namespace Token

def number? (digits : List Char) : Option Nat :=
  if digits.all isAsciiDigit then some (decimalValue digits) else none

/-- The value of signed ASCII digits, if it has 64 bits. -/
def number64? (negative : Bool) (digits : List Char) : Option Int := do
  let magnitude ← number? digits
  let n : Int := if negative then -magnitude else magnitude
  if -2 ^ 63 ≤ n && n < 2 ^ 63 then some n else none

def digits : Scan (List Char) :=
  Scan.some1 isDecimalDigit

def digitsUpTo2 : Scan (List Char) :=
  Scan.upTo 2 isDecimalDigit

def digitsOf (count : Nat) : Scan (List Char) :=
  Scan.exactly count isDecimalDigit

/-- A token whose form fits, if its numbers can be read. -/
abbrev Form := Scan (Option Token)

def oneOf (cs : List Char) : Scan Char :=
  Scan.one cs.contains

/-- A word that starts with the abbreviation of a month, perhaps with a point. -/
def monthWord : Scan Nat := do
  let text ← Scan.letters
  let month ← Scan.value (monthOfWord? text)
  let _ ← Scan.opt (Scan.char '.')
  return month

def yearEnd : Scan (List Char) := do
  let year ← digitsOf 4
  Scan.wordEnd
  return year

/-- The ending of an ordinal number, as in `1st`. -/
def ordinalEnding : Scan Unit := do
  let ending ← Scan.exactly 2 Char.isLower
  Scan.require (["st", "nd", "rd", "th"].contains (String.ofList ending))

def isGap (c : Char) : Bool :=
  isBlank c || c == '-'

def isWideGap (c : Char) : Bool :=
  isBlank c || c == ',' || c == '-'

def fullDate (year month day : List Char) : Option Token := do
  return .date (some (← number? year)) (← number? month) (← number? day)

/-- A year of two digits lies in 1970 to 2069. -/
def expandYear (count year : Nat) : Nat :=
  if count = 2 then (if year ≤ 69 then 2000 + year else 1900 + year) else year

/-- `@1418031515` -/
def timestampForm : Form := do
  Scan.char '@'
  let minus ← Scan.opt (Scan.char '-')
  let seconds ← digits
  return (number64? minus.isSome seconds).map timestamp

/-- `2014-12-08`, perhaps with a `t` before the time. -/
def isoForm : Form := do
  let year ← digitsOf 4
  Scan.char '-'
  let month ← digitsUpTo2
  Scan.char '-'
  let day ← digitsUpTo2
  let _ ← Scan.opt (Scan.char 't')
  return fullDate year month day

/-- `2014/12/08` -/
def slashForm : Form := do
  let year ← digitsOf 4
  Scan.char '/'
  let month ← digitsUpTo2
  Scan.char '/'
  let day ← digitsUpTo2
  return fullDate year month day

/-- `12/08/2014` or `12/08/14` -/
def americanForm : Form := do
  let month ← digitsUpTo2
  Scan.char '/'
  let day ← digitsUpTo2
  Scan.char '/'
  let year ← Scan.firstOf [yearEnd, do
    let year ← digitsOf 2
    Scan.wordEnd
    return year]
  return do
    let fullYear := expandYear year.length (← number? year)
    return .date (some fullYear) (← number? month) (← number? day)

/-- `08.12.2014` or `08-12-2014` -/
def dayFirstForm : Form := do
  let day ← digitsUpTo2
  let _ ← oneOf ['.', '-']
  let month ← digitsUpTo2
  let _ ← oneOf ['.', '-']
  let year ← yearEnd
  return fullDate year month day

/-- `December 2014`, the first day of the month. -/
def monthYearForm : Form := do
  let month ← monthWord
  let _ ← Scan.blanks1
  let year ← yearEnd
  return (number? year).map fun year => .date (some year) month 1

/-- `8th December 2014`, where the year may be left out. -/
def dayMonthForm : Form := do
  let day ← digitsUpTo2
  let _ ← Scan.opt ordinalEnding
  let _ ← Scan.run isGap
  let month ← monthWord
  let year ← Scan.opt do
    let _ ← Scan.some1 isWideGap
    yearEnd
  return (number? day).map fun day => .date (year.bind number?) month day

/-- `December 8th, 2014`, where the year may be left out. -/
def monthDayForm : Form := do
  let month ← monthWord
  let _ ← Scan.some1 isGap
  let day ← digitsUpTo2
  let _ ← Scan.opt ordinalEnding
  Scan.wordEnd
  let year ← Scan.opt do
    let _ ← Scan.opt (Scan.char ',')
    let _ ← Scan.blanks1
    yearEnd
  return (number? day).map fun day => .date (year.bind number?) month day

/-- `am`, `a.m.`, `pm` or `p.m.`, where each point may be left out. -/
def halfMark : Scan Half := do
  let c ← oneOf ['a', 'p']
  let _ ← Scan.opt (Scan.char '.')
  Scan.char 'm'
  let _ ← Scan.opt (Scan.char '.')
  return if c == 'a' then .am else .pm

/-- Seconds behind a colon, with a fraction that is dropped. -/
def secondPart : Scan (List Char) := do
  Scan.char ':'
  let second ← digitsOf 2
  let _ ← Scan.opt do
    let _ ← oneOf ['.', ',']
    digits
  return second

/-- `10:38`, `10:38:35.5` or `10:38 pm` -/
def timeForm : Form := do
  let hour ← digitsUpTo2
  Scan.char ':'
  let minute ← digitsOf 2
  let second ← Scan.opt secondPart
  let half ← Scan.opt do
    let _ ← Scan.blanks
    halfMark
  return do
    return .time (← number? hour) (← number? minute) ((second.bind number?).getD 0) half

/-- `10pm` -/
def hourForm : Form := do
  let hour ← digitsUpTo2
  let _ ← Scan.blanks
  let half ← halfMark
  return (number? hour).map fun hour => .time hour 0 0 (some half)

/-- `+2 weeks` or `3 days` -/
def shiftForm : Form := do
  let sign ← Scan.opt (oneOf ['+', '-'])
  let _ ← Scan.blanks
  let amount ← digits
  let _ ← Scan.blanks
  let word ← Scan.word
  let unit ← Scan.value (TimeUnit.ofWord? word)
  return (number64? false amount).map fun amount =>
    .shift unit (if sign == some '-' then -amount else amount)

def agoForm : Form := do
  let word ← Scan.word
  Scan.require (word == "ago")
  return some .ago

def keyword? : String → Option Token
  | "now" => some .now
  | "today" | "midnight" => some (.dayStart 0)
  | "noon" => some (.time 12 0 0 none)
  | "tomorrow" => some (.dayStart 1)
  | "yesterday" => some (.dayStart (-1))
  | _ => none

def keywordForm : Form := do
  let word ← Scan.word
  let token ← Scan.value (keyword? word)
  return some token

/-- `first day of` or `last day of` -/
def monthEdgeForm : Form := do
  let edge ← Scan.letters
  let _ ← Scan.blanks1
  let day ← Scan.letters
  let _ ← Scan.blanks1
  let of ← Scan.word
  Scan.require (day == ['d', 'a', 'y'] && of == "of")
  match String.ofList edge with
  | "first" => return some (.monthEdge .first)
  | "last" => return some (.monthEdge .last)
  | _ => Scan.value none

def direction? : String → Option Direction
  | "next" => some .next
  | "this" => some .this
  | "last" | "previous" => some .last
  | _ => none

def Direction.amount : Direction → Int
  | .next => 1
  | .this => 0
  | .last => -1

/-- `next month` or `last friday` -/
def directedForm : Form := do
  let text ← Scan.letters
  let direction ← Scan.value (direction? (String.ofList text))
  let _ ← Scan.blanks1
  let word ← Scan.word
  return match TimeUnit.ofWord? word with
    | some unit => some (.shift unit (Direction.amount direction))
    | none => (weekdayOfWord? word).map fun day => .weekday day direction

def zoneForm : Form := do
  let word ← Scan.word
  Scan.require (word == "z" || word == "utc" || word == "gmt")
  return some (.offset 0)

/-- `+01:00`, `-0530` or `+1` -/
def offsetForm : Form := do
  let sign ← oneOf ['+', '-']
  let hours ← digitsUpTo2
  let minutes ← Scan.opt do
    let _ ← Scan.opt (Scan.char ':')
    digitsOf 2
  return do
    let hours ← number? hours
    let seconds : Int := hours * 3600 + (minutes.bind number?).getD 0 * 60
    return .offset (if sign == '-' then -seconds else seconds)

def weekdayForm : Form := do
  let word ← Scan.word
  return (weekdayOfWord? word).map fun day => .weekday day .this

def forms : List Form :=
  [timestampForm, isoForm, slashForm, americanForm, dayFirstForm, monthYearForm, dayMonthForm,
    monthDayForm, timeForm, hourForm, shiftForm, agoForm, keywordForm, monthEdgeForm, directedForm,
    zoneForm, offsetForm, weekdayForm]

/-- The first form that fits, and its token if its numbers can be read. -/
def scan : Form :=
  Scan.firstOf forms

def isSeparator (c : Char) : Bool :=
  isBlank c || c == ','

/-- The tokens of a phrase, between which blanks and commas may stand. Every token takes at least
one character, so as many steps as characters are enough. -/
def readAll : (steps : Nat) → List Char → Option (List Token)
  | steps, text =>
    match stripStart isSeparator text, steps with
    | [], _ => some []
    | _, 0 => none
    | text, steps + 1 =>
      match scan text with
      | some (some token, rest) => (readAll steps rest).map (token :: ·)
      | _ => none

def tokens? (text : List Char) : Option (List Token) :=
  readAll text.length text

end Token

end ConfigExpr.DatePhrase
