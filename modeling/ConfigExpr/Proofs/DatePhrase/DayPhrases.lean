import Mathlib.Order.Bounds.Defs
import ConfigExpr.Proofs.DatePhrase.FixedShifts
import ConfigExpr.Proofs.DatePhrase.Phrases

/-!
Phrases for a day that is told from today: `today`, `tomorrow`, `next friday`. They stand for the
midnight with which that day begins.
-/
namespace ConfigExpr.DatePhrase
open Calendar Text Scan

def weekdayWords : List String :=
  ["monday", "mon", "tuesday", "tue", "tues", "wednesday", "wed", "thursday", "thu", "thur", "thurs",
    "friday", "fri", "saturday", "sat", "sunday", "sun"]

structure WeekdayWord where
  word : String
  day : Nat
  named : weekdayOfWord? word = some day

inductive DayPhrase where
  | today
  | midnight
  | tomorrow
  | yesterday
  | weekday (name : WeekdayWord)
  | this (name : WeekdayWord)
  | next (name : WeekdayWord)
  | last (name : WeekdayWord)
  | previous (name : WeekdayWord)

section Weekdays
variable (today : Int) {target : Nat} (listed : target < 7)
include listed

theorem isLeast_this : IsLeast {day | today ≤ day ∧ weekday day = target}
    (today + daysToWeekday (weekday today) target .this) := by
  simp only [weekday, daysToWeekday]
  constructor
  · constructor <;> omega
  · rintro day ⟨notBefore, same⟩
    omega

theorem isLeast_next : IsLeast {day | today < day ∧ weekday day = target}
    (today + daysToWeekday (weekday today) target .next) := by
  -- Without the case of the same weekday the distance is one to seven days.
  have days : daysToWeekday (weekday today) target .next =
      ((target : Int) - weekday today - 1) % 7 + 1 := by
    rw [daysToWeekday, weekday]
    split <;> omega
  rw [days]
  simp only [weekday]
  constructor
  · constructor <;> omega
  · rintro day ⟨after, same⟩
    omega

theorem isGreatest_last : IsGreatest {day | day < today ∧ weekday day = target}
    (today + daysToWeekday (weekday today) target .last) := by
  have days : daysToWeekday (weekday today) target .last =
      -(((weekday today : Int) - target - 1) % 7 + 1) := by
    rw [daysToWeekday, weekday]
    split <;> omega
  rw [days]
  simp only [weekday]
  constructor
  · constructor <;> omega
  · rintro day ⟨before, same⟩
    omega

end Weekdays

theorem mem_weekdayWords {word : String} {day : Nat} (named : weekdayOfWord? word = some day) :
    word ∈ weekdayWords := by
  unfold weekdayOfWord? at named
  split at named
  case h_18 => cases named
  all_goals decide

theorem WeekdayWord.day_lt (name : WeekdayWord) : name.day < 7 := by
  have each : ∀ word ∈ weekdayWords, (weekdayOfWord? word).all (· < 7) = true := by decide
  have small := each name.word (mem_weekdayWords name.named)
  rw [name.named] at small
  exact of_decide_eq_true small

namespace DayPhrase

/-- What a phrase says of a day, when it is said on the day `today`. -/
def Denotes (today day : Int) : DayPhrase → Prop
  | .today | midnight => day = today
  | tomorrow => day = today + 1
  | yesterday => day = today - 1
  | weekday name | this name => IsLeast {d | today ≤ d ∧ Calendar.weekday d = name.day} day
  | next name => IsLeast {d | today < d ∧ Calendar.weekday d = name.day} day
  | last name | previous name => IsGreatest {d | d < today ∧ Calendar.weekday d = name.day} day

def token : DayPhrase → Token
  | today | midnight => .dayStart 0
  | tomorrow => .dayStart 1
  | yesterday => .dayStart (-1)
  | weekday name | this name => .weekday name.day .this
  | next name => .weekday name.day .next
  | last name | previous name => .weekday name.day .last

/-- The days from today to the day that a phrase denotes. -/
def distance (today : Int) (phrase : DayPhrase) : Int :=
  match phrase.token with
  | .dayStart days => days
  | .weekday target direction => daysToWeekday (Calendar.weekday today) target direction
  | _ => 0

theorem denotes_distance (today : Int) (phrase : DayPhrase) :
    phrase.Denotes today (today + phrase.distance today) := by
  cases phrase with
  | today | midnight => exact Int.add_zero today
  | tomorrow => rfl
  | yesterday => rfl
  | weekday name | this name => exact isLeast_this today name.day_lt
  | next name => exact isLeast_next today name.day_lt
  | last name | previous name => exact isGreatest_last today name.day_lt

def text : DayPhrase → List Char
  | today => "today".toList
  | midnight => "midnight".toList
  | tomorrow => "tomorrow".toList
  | yesterday => "yesterday".toList
  | weekday name => name.word.toList
  | this name => "this ".toList ++ name.word.toList
  | next name => "next ".toList ++ name.word.toList
  | last name => "last ".toList ++ name.word.toList
  | previous name => "previous ".toList ++ name.word.toList

end DayPhrase

def isWording (text : List Char) : Bool :=
  text.head?.any Char.isLower && text.reverse.head?.any Char.isLower &&
    text.all fun c => c.isLower || c == ' '

section Wording
variable {text : List Char} {p : Char → Bool}

theorem stops_of_letter (letter : text.head?.any Char.isLower = true)
    (others : ∀ c, c.isLower = true → p c = false) : Stops p text := by
  intro c first
  rw [first, Option.any_some] at letter
  exact others c letter

theorem stops_of_letter_toLower (letter : (text.map Char.toLower).head?.any Char.isLower = true)
    (others : ∀ c, c.toLower.isLower = true → p c = false) : Stops p text := by
  intro c first
  rw [List.head?_map, first, Option.map_some, Option.any_some] at letter
  exact others c letter

theorem isSeparator_of_isLower {c : Char} (lower : c.isLower = true) :
    Token.isSeparator c = false := by
  rw [Token.isSeparator, isBlank_of_isLower lower, Bool.false_or, beq_eq_false_iff_ne]
  rintro rfl
  cases lower

theorem isAsciiDigit_of_isLower_toLower {c : Char} (lower : c.toLower.isLower = true) :
    isAsciiDigit c = false :=
  Bool.eq_false_iff.mpr fun digit => by
    have none : (asciiDigits.any fun c => c.toLower.isLower) = false := rfl
    exact List.any_eq_false.mp none c (mem_asciiDigits digit) lower

theorem parse_wording (wording : isWording (text.map Char.toLower) = true) {token : Token}
    (scanned : Token.scan (text.map Char.toLower) = some (some token, [])) (base offset : Int) :
    parse (String.ofList text) base offset =
      understood (Reading.ofTokens? [token]) >>= fun reading => reading.resolve base offset := by
  rw [isWording, Bool.and_eq_true, Bool.and_eq_true, List.all_eq_true, ← List.map_reverse] at wording
  obtain ⟨⟨first, final⟩, all⟩ := wording
  have start : Stops isBlank text :=
    stops_of_letter_toLower first fun c => isBlank_of_isLower_toLower
  have ending : Stops isBlank text.reverse :=
    stops_of_letter_toLower final fun c => isBlank_of_isLower_toLower
  have noDigit : Stops isAsciiDigit text :=
    stops_of_letter_toLower first fun c => isAsciiDigit_of_isLower_toLower
  have noComma : ',' ∉ text := fun member => by
    have comma := all _ (List.mem_map_of_mem member)
    cases comma
  have lowerStart : Stops Token.isSeparator (text.map Char.toLower) :=
    stops_of_letter first fun c => isSeparator_of_isLower
  have filled : text ≠ [] := by
    rintro rfl
    cases first
  exact parse_of_reads start ending
    (Rfc3339.scan_of_fixedNumber (bind_of_fails (exactly_stops (by decide) noDigit)))
    (Rfc2822.scan_without_comma start noDigit noComma)
    (.cons (Token.stripStart_of_stops lowerStart) scanned Token.reads_nil)
    (List.length_pos_iff.mpr filled) (List.cons_ne_nil _ _) base offset

end Wording

/-- What may stand before a weekday, with the direction that it gives. -/
def weekdayLeads : List (String × Direction) :=
  [("", .this), ("this ", .this), ("next ", .next), ("last ", .last), ("previous ", .last)]

theorem scan_weekday {lead : String} {direction : Direction}
    (listed : (lead, direction) ∈ weekdayLeads) (name : WeekdayWord) :
    isWording (lead.toList ++ name.word.toList) = true ∧
    Token.scan (lead.toList ++ name.word.toList) =
      some (some (.weekday name.day direction), []) := by
  have each : ∀ lead ∈ weekdayLeads, ∀ word ∈ weekdayWords,
      isWording (lead.1.toList ++ word.toList) = true ∧
      Token.scan (lead.1.toList ++ word.toList) =
        (weekdayOfWord? word).map fun day => (some (.weekday day lead.2), []) := by
    decide +kernel
  obtain ⟨wording, scanned⟩ := each _ listed _ (mem_weekdayWords name.named)
  rw [name.named] at scanned
  exact ⟨wording, scanned⟩

namespace DayPhrase

theorem scan_text (phrase : DayPhrase) : isWording phrase.text = true ∧
    Token.scan phrase.text = some (some phrase.token, []) := by
  cases phrase with
  | today | midnight | tomorrow | yesterday => exact ⟨rfl, rfl⟩
  | weekday name =>
    have bare : ("", Direction.this) ∈ weekdayLeads := by decide
    exact scan_weekday bare name
  | this name | next name | last name | previous name => exact scan_weekday (by decide) name

end DayPhrase

/-- The midnight with which a supported day begins, in seconds of local time. -/
def midnight? (day : Int) : Option Int :=
  (supported? day).map (· * 86400)

theorem supportedInstant?_midnight (day : Int) : supportedInstant? (day * 86400) = midnight? day := by
  have whole : dayOf (day * 86400) = day := by
    rw [dayOf, daySeconds]
    omega
  rw [supportedInstant?, isSupportedInstant, whole, midnight?, supported?]
  split <;> rfl

namespace Reading

theorem local?_dayStart {days : Int} (near : days.natAbs ≤ 1) (here : Int) :
    ({ empty with atMidnight := true, shift := Shift.none.add .day days } : Reading).local? here =
      midnight? (dayOf here + days) := by
  have some_days : (Shift.none.add .day days).totalMonths? = some 0 ∧
      (Shift.none.add .day days).totalSeconds? = some (86400 * days) := by
    obtain rfl | rfl | rfl : days = -1 ∨ days = 0 ∨ days = 1 := by omega
    all_goals exact ⟨rfl, rfl⟩
  have shown : dayOf here * 86400 + (0 : Nat) + 86400 * days = (dayOf here + days) * 86400 := by omega
  rw [← supportedInstant?_midnight, ← shown]
  simp only [local?, day?, empty, clock, some_days]
  rfl

theorem local?_weekday (target : Nat) (direction : Direction) (here : Int) :
    ({ empty with atMidnight := true, weekday := some (target, direction) } : Reading).local? here =
      midnight? (dayOf here + daysToWeekday (Calendar.weekday (dayOf here)) target direction) := by
  have steps : ({ empty with atMidnight := true, weekday := some (target, direction) } :
      Reading).local? here = (toWeekday? (dayOf here) target direction).bind fun day =>
        supportedInstant? (day * 86400 + (0 : Nat) + 0) := rfl
  rw [steps, toWeekday?]
  generalize dayOf here + daysToWeekday (Calendar.weekday (dayOf here)) target direction = day
  cases found : supported? day with
  | none => rw [midnight?, found]; rfl
  | some there =>
    obtain rfl : day = there := by
      rw [supported?, Option.ite_none_right_eq_some, Option.some.injEq] at found
      exact found.2
    have shown : day * 86400 + (0 : Nat) + 0 = day * 86400 := by omega
    rw [Option.bind_some, shown, supportedInstant?_midnight]

end Reading

namespace DayPhrase

theorem exists_reading (phrase : DayPhrase) :
    ∃ r : Reading, Reading.ofTokens? [phrase.token] = some r ∧ r.offset = none ∧
      r.timestamp = none ∧
      ∀ here, r.local? here = midnight? (dayOf here + phrase.distance (dayOf here)) := by
  cases phrase with
  | today | midnight | tomorrow | yesterday =>
    exact ⟨_, rfl, rfl, rfl, Reading.local?_dayStart (by decide)⟩
  | weekday name | this name | next name | last name | previous name =>
    exact ⟨_, rfl, rfl, rfl, Reading.local?_weekday _ _⟩

theorem parse_eq (phrase : DayPhrase) {text : List Char}
    (spelled : text.map Char.toLower = phrase.text) (base offset : Int) :
    parse (String.ofList text) base offset =
      readAt base offset fun here => midnight? (dayOf here + phrase.distance (dayOf here)) := by
  obtain ⟨wording, scanned⟩ := phrase.scan_text
  rw [← spelled] at wording scanned
  obtain ⟨r, means, noOffset, noInstant, there⟩ := phrase.exists_reading
  rw [parse_wording wording scanned, means, understood, Outcome.ok_bind,
    r.resolve_of_unanchored noOffset noInstant, funext there]

end DayPhrase

end ConfigExpr.DatePhrase
