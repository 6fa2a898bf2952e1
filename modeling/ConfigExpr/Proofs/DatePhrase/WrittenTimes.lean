import ConfigExpr.Proofs.DatePhrase.CivilReadings
import ConfigExpr.Proofs.DatePhrase.SpacedItems

/-!
A date, a time of day and an offset in digits, with single blanks between them. Each of the three is
read as one token, whichever of the others stands behind it, so in every order they mean the same
instant, whatever the base and the local offset are.
-/
namespace ConfigExpr.DatePhrase
open Calendar Text Scan

structure WrittenTime where
  year : DigitRun 4
  month : DigitRun 2
  day : DigitRun 2
  hour : DigitRun 2
  minute : DigitRun 2
  second : DigitRun 2
  west : Bool
  zoneHour : DigitRun 2
  zoneMinute : DigitRun 2
  months : 1 ≤ month.value ∧ month.value ≤ 12
  days : 1 ≤ day.value ∧ day.value ≤ 31
  hours : hour.value < 24
  minutes : minute.value < 60
  seconds : second.value < 60
  zone : (Token.ofZone west zoneHour zoneMinute).natAbs < 86400

inductive Component where
  | date
  | clock
  | zone
deriving DecidableEq, Repr

namespace WrittenTime
variable (t : WrittenTime)

def secondsOfDay : Nat :=
  t.hour.value * 3600 + t.minute.value * 60 + t.second.value

/-- The instant that a written time denotes. -/
def instant : Int :=
  (dayNumber t.year.value t.month.value 1 + (t.day.value - 1)) * 86400 + t.secondsOfDay -
    Token.ofZone t.west t.zoneHour t.zoneMinute

def part : Component → List Char
  | .date => isoText t.year t.month t.day
  | .clock => clockText t.hour t.minute t.second none
  | .zone => Token.zoneText t.west t.zoneHour t.zoneMinute

def token : Component → Token
  | .date => Token.ofDate t.year t.month t.day
  | .clock => Token.ofClock t.hour t.minute t.second none
  | .zone => .offset (Token.ofZone t.west t.zoneHour t.zoneMinute)

def text (order : List Component) : List Char :=
  spaced (order.map t.part)

theorem part_starts (component : Component) : StartsItem (t.part component) := by
  cases component with
  | date => exact startsItem_run t.year (by decide) _
  | clock => exact startsItem_run t.hour (by decide) _
  | zone => exact startsItem_sign t.west _

theorem zone_stops {rest : List Char} : Stops isAsciiDigit (t.part .zone ++ rest) := by
  rw [part, Token.zoneText]
  cases t.west with
  | false | true => exact stops_cons rfl

theorem part_reverse_stops (component : Component) (rest : List Char) :
    Stops isBlank ((t.part component).reverse ++ rest) := by
  cases component with
  | clock => exact clockText_reverse_stops
  | date =>
    simp only [part, isoText, List.reverse_append, List.reverse_cons, List.append_assoc]
    exact t.day.reverse_stops (by decide) rfl
  | zone =>
    simp only [part, Token.zoneText, List.reverse_append, List.reverse_cons, List.append_assoc]
    exact t.zoneMinute.reverse_stops (by decide) rfl

@[simp] theorem part_map_toLower (component : Component) :
    (t.part component).map Char.toLower = t.part component := by
  cases component with
  | clock => exact clockText_map_toLower
  | date =>
    simp only [part, isoText, List.map_append, List.map_cons, DigitRun.map_toLower]
    rfl
  | zone => exact Token.zoneText_map_toLower t.west t.zoneHour t.zoneMinute

theorem scan_part (component : Component) {rest : List Char} (follows : Follows rest) :
    Token.scan (t.part component ++ rest) = some (some (t.token component), rest) := by
  cases component with
  | date =>
    simp only [part, isoText, List.append_assoc, List.cons_append]
    exact Token.scan_iso t.year t.month t.day (follows.stops rfl)
  | clock =>
    simp only [part, clockText, Token.halfText, List.append_nil, List.append_assoc, List.cons_append]
    exact Token.scan_time t.hour t.minute t.second (by decide) (by decide) (follows.stops rfl)
      follows.halfOfDay
  | zone => exact Token.scan_zoneText t.west t.zoneHour t.zoneMinute

theorem text_cons (first : Component) (order : List Component) :
    t.text (first :: order) = t.part first ++ (order.map t.part).flatMap (' ' :: ·) :=
  spaced_cons _ _

theorem notRfc2822 (first : Component) (order : List Component) :
    Rfc2822.scan (t.text (first :: order)) = none := by
  rw [text_cons]
  cases first with
  | date =>
    rw [part, isoText, List.append_assoc]
    exact Rfc2822.scan_of_year t.year
  | clock =>
    rw [part, clockText, List.append_assoc]
    exact Rfc2822.scan_of_run t.hour (stops_cons (by decide))
  | zone =>
    rw [part, Token.zoneText]
    cases t.west with
    | false | true => exact Rfc2822.scan_without_day (by decide) (by decide) (by decide)

theorem notRfc3339 {first : Component} {order : List Component} (once : first ∉ order) :
    Rfc3339.scan (t.text (first :: order)) = none := by
  rw [text_cons]
  -- Only a date can stand first, and then what is second decides.
  cases first with
  | clock =>
    rw [part, clockText, List.append_assoc]
    exact Rfc3339.scan_of_fixedNumber (t.hour.fixedNumber_fails (by decide) (stops_cons rfl))
  | zone =>
    exact Rfc3339.scan_of_fixedNumber (bind_of_fails (exactly_stops (by decide) t.zone_stops))
  | date =>
    simp only [part, isoText, List.append_assoc, List.cons_append]
    cases order with
    | nil => exact Rfc3339.scan_without_hour t.year t.month t.day rfl
    | cons second order =>
      have behind : Follows ((order.map t.part).flatMap (' ' :: ·)) :=
        follows_tail fun component _ => t.part_starts component
      rw [List.map_cons, List.flatMap_cons]
      cases second with
      | date => exact absurd List.mem_cons_self once
      | clock =>
        simp only [part, clockText, Token.halfText, List.append_nil, List.append_assoc,
          List.cons_append]
        exact Rfc3339.scan_without_offset t.year t.month t.day t.minute t.second t.hour
          (Nat.le_refl 2) (behind.stops rfl) (behind.stops rfl)
      | zone =>
        have noHour {rest} : fixedNumber 2 (t.part .zone ++ rest) = none :=
          bind_of_fails (exactly_stops (by decide) t.zone_stops)
        exact Rfc3339.scan_without_hour t.year t.month t.day noHour

theorem year_le : t.year.value ≤ 9999 :=
  Nat.le_of_lt_succ t.year.value_lt

theorem secondsOfDay_lt : t.secondsOfDay < 86400 := by
  have hours := t.hours
  have minutes := t.minutes
  have seconds := t.seconds
  rw [secondsOfDay]
  omega

theorem instant_bounds : -2 ^ 63 ≤ t.instant ∧ t.instant < 2 ^ 63 := by
  let day := dayNumber t.year.value t.month.value 1 + (t.day.value - 1)
  have supported : isSupportedInstant (day * 86400 + t.secondsOfDay) = true := by
    rw [isSupportedInstant, dayOf_add_clock day t.secondsOfDay_lt]
    exact (dayInMonth?_eq t.year_le t.months t.days).2
  have bounds := bounds_of_isSupportedInstant supported
  have zone := t.zone
  rw [instant]
  omega

variable {t} {order : List Component}

theorem parse_text (perm : order.Perm [.date, .clock, .zone]) {base : Int}
    (supportedBase : isSupportedInstant base = true) (offset : Int) :
    parse (String.ofList (t.text order)) base offset =
      if isSupportedInstant (base + Token.ofZone t.west t.zoneHour t.zoneMinute) then .ok t.instant
      else .error .noLocalTime := by
  have means : Reading.ofTokens? (order.map t.token) = some (Reading.zoned t.year.value t.month.value
      t.day.value t.secondsOfDay (Token.ofZone t.west t.zoneHour t.zoneMinute)) := by
    rw [Reading.ofTokens?_perm (perm.map t.token)
      (by simp [token, Token.ofDate, Token.ofClock, Token.isAbsolute])]
    exact Reading.ofTokens?_zoned t.months t.days (Reading.hourOfDay?_unmarked t.hours) t.minutes
      t.seconds t.zone
  cases order with
  | nil => cases perm.length_eq
  | cons first order =>
    have once : first ∉ order := (List.nodup_cons.mp (perm.nodup_iff.mpr (by decide))).1
    rw [text, parse_spaced (List.cons_ne_nil _ _) (fun component _ => t.part_starts component)
      (fun component _ => t.part_reverse_stops component) (t.notRfc3339 once)
      (t.notRfc2822 first order)
      (fun component _ rest follows => by rw [part_map_toLower, t.scan_part component follows]),
      means, understood, Outcome.ok_bind,
      Reading.resolve_zoned t.year_le t.months t.days t.secondsOfDay_lt, readAt_const supportedBase,
      ← instant]

end WrittenTime

end ConfigExpr.DatePhrase
