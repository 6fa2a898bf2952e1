import ConfigExpr.Proofs.Calendar.Months
import ConfigExpr.Proofs.DatePhrase.Phrases
import ConfigExpr.Proofs.DatePhrase.Resolution

/-!
Phrases such as `first day of +2 months` and `last day of next month`. The months are added to the
day of the base before the edge is looked for, so the edge is that of the month in which the day
lands, and that is the month after when the month that is meant does not have the day.
-/
namespace ConfigExpr.DatePhrase
open Calendar Text Scan

inductive MonthStep where
  | counted (back : Bool) (count : Nat)
  | directed (direction : Direction)

namespace MonthStep

def months : MonthStep → Int
  | counted back count => if back then -count else count
  | directed direction => Token.Direction.amount direction

def directionText : Direction → List Char
  | .this => "this".toList
  | .next => "next".toList
  | .last => "last".toList

def text : MonthStep → List Char
  | counted back count => (if back then '-' else '+') :: (Numeral.ofNat count ++ " months".toList)
  | directed direction => directionText direction ++ " month".toList

def token (step : MonthStep) : Token :=
  .shift .month step.months

theorem map_toLower (step : MonthStep) : step.text.map Char.toLower = step.text := by
  cases step with
  | directed direction =>
    cases direction with
    | this | next | last => rfl
  | counted back count =>
    have digits : (Numeral.ofNat count).map Char.toLower = Numeral.ofNat count :=
      (DigitRun.ofNumeral count).map_toLower
    rw [text, List.map_cons, List.map_append, digits]
    cases back with
    | false | true => rfl

theorem text_stops (step : MonthStep) : Stops Token.isSeparator step.text := by
  cases step with
  | directed direction =>
    cases direction with
    | this | next | last => exact stops_cons rfl
  | counted back count =>
    cases back with
    | false | true => exact stops_cons rfl

theorem text_reverse_stops (step : MonthStep) {rest : List Char} :
    Stops isBlank (step.text.reverse ++ rest) := by
  cases step with
  | directed direction =>
    cases direction with
    | this | next | last => exact stops_cons rfl
  | counted back count =>
    rw [text, List.reverse_cons, List.reverse_append]
    exact stops_cons rfl

end MonthStep

def edgeText : MonthEdge → List Char
  | .first => "first day of".toList
  | .last => "last day of".toList

def edgePhrase (edge : MonthEdge) (step : MonthStep) : List Char :=
  edgeText edge ++ ' ' :: step.text

namespace Token

theorem scan_edgeText (edge : MonthEdge) (rest : List Char) :
    scan (edgeText edge ++ ' ' :: rest) = some (some (.monthEdge edge), ' ' :: rest) := by
  cases edge with
  | first | last => rfl

theorem scan_step (step : MonthStep) (small : step.months.natAbs < 2 ^ 63) :
    scan step.text = some (some step.token, []) := by
  cases step with
  | directed direction =>
    cases direction with
    | this | next | last => rfl
  | counted back count =>
    have value : (DigitRun.ofNumeral count).value = count := DigitRun.value_ofNumeral count
    have few : count < 2 ^ 63 := by
      rw [MonthStep.months] at small
      split at small
      all_goals omega
    have named : TimeUnit.ofWord? (String.ofList "months".toList) = some .month := rfl
    have scanned := scan_shift back (.ofNumeral count) (DigitRun.length_numeral_pos count)
      (by rwa [value]) named stops_nil
    rwa [value, List.append_nil] at scanned

end Token

theorem isPhrase_edgePhrase (edge : MonthEdge) (step : MonthStep)
    (small : step.months.natAbs < 2 ^ 63) :
    IsPhrase (edgePhrase edge step) [.monthEdge edge, step.token] where
  start := by
    cases edge with
    | first | last => exact stops_cons rfl
  ending := by
    rw [edgePhrase, List.reverse_append, List.reverse_cons, List.append_assoc]
    exact step.text_reverse_stops
  lower := by
    rw [edgePhrase, List.map_append, List.map_cons, step.map_toLower]
    cases edge with
    | first | last => rfl
  notRfc3339 := by
    cases edge with
    | first | last => rfl
  notRfc2822 := by
    cases edge with
    | first | last => rfl
  reads := by
    have starts : Stops Token.isSeparator (edgePhrase edge step) := by
      cases edge with
      | first | last => exact stops_cons rfl
    exact .cons (Token.stripStart_of_stops starts) (Token.scan_edgeText edge step.text)
      (.cons (Token.stripStart_blank step.text_stops) (Token.scan_step step small) Token.reads_nil)
  enough := by
    cases edge with
    | first | last => exact Nat.le_add_left 2 _

def edgePlace (index : Int) : MonthEdge → Nat
  | .first => 1
  | .last => spanLength index

def edgeDay (index : Int) (edge : MonthEdge) : Int :=
  monthStart index + (edgePlace index edge - 1)

theorem edgePlace_bounds (index : Int) (edge : MonthEdge) :
    1 ≤ edgePlace index edge ∧ edgePlace index edge ≤ spanLength index := by
  have long := le_spanLength index
  cases edge with
  | first => exact ⟨Nat.le_refl 1, by rw [edgePlace]; omega⟩
  | last => exact ⟨by rw [edgePlace]; omega, Nat.le_refl _⟩

theorem monthIndex_edgeDay (index : Int) (edge : MonthEdge) :
    monthIndex (edgeDay index edge) = index := by
  have bounds := edgePlace_bounds index edge
  have next := monthStart_succ index
  rw [edgeDay]
  exact monthIndex_eq (by omega) (by omega)

theorem dayOfMonth_edgeDay (index : Int) (edge : MonthEdge) :
    dayOfMonth (edgeDay index edge) = edgePlace index edge := by
  have told := monthStart_add_dayOfMonth (edgeDay index edge)
  have placed : edgeDay index edge = monthStart index + (edgePlace index edge - 1) := rfl
  rw [monthIndex_edgeDay] at told
  omega

theorem toEdge_eq (day : Int) (edge : MonthEdge) :
    toEdge day edge = edgeDay (monthIndex day) edge := by
  rw [edgeDay, monthStart, ← yearOf_eq, ← monthOf_eq]
  cases edge with
  | first =>
    rw [toEdge, edgePlace]
    omega
  | last =>
    rw [toEdge, edgePlace, spanLength, ← yearOf_eq, ← monthOf_eq, dayNumber, dayNumber]
    omega

theorem isSupported_edgeDay {index : Int} (edge : MonthEdge)
    (supported : isSupportedYear (index / 12) = true) :
    isSupported (edgeDay index edge) = true := by
  rwa [isSupported_iff_monthIndex, monthIndex_edgeDay]

/-- The month in which the day of the month lands so many months away. -/
def landing (today months : Int) : Int :=
  if dayOfMonth today ≤ spanLength (monthIndex today + months) then monthIndex today + months
  else monthIndex today + months + 1

theorem monthIndex_eq_landing (today months : Int) :
    monthIndex (monthsLater today months) = landing today months :=
  monthIndex_monthStart_add _ (monthDay_spec today).2.1.1 (dayOfMonth_le today)

theorem isSupported_landing {today months : Int} (edge : MonthEdge)
    (supported : isSupportedYear ((monthIndex today + months) / 12) = true) :
    isSupported (edgeDay (landing today months) edge) = true := by
  have there := isSupported_monthsLater supported
  rw [isSupported_iff_monthIndex, monthIndex_eq_landing] at there
  exact isSupported_edgeDay edge there

theorem within64?_of_small {n : Int} (small : n.natAbs < 2 ^ 63) : within64? n = some n := by
  rw [within64?, if_pos]
  rw [Bool.and_eq_true, decide_eq_true_eq, decide_eq_true_eq]
  omega

theorem addMonths?_eq {today months : Int}
    (supported : isSupportedYear ((monthIndex today + months) / 12) = true) :
    addMonths? today months = some (monthsLater today months) := by
  have there := isSupported_monthsLater supported
  rw [monthsLater] at there
  have small : (monthIndex today + months).natAbs < 2 ^ 63 := by
    have years := bounds_of_isSupportedYear supported
    omega
  rw [addMonths?, ← monthIndex, within64?_of_small small, Option.bind_eq_bind, Option.bind_some,
    dayInMonth?, if_pos supported, supported?, ← monthStart, if_pos there, monthsLater]

namespace Reading

/-- The reading of an edge of the month that is so many months away. -/
def ofEdge (edge : MonthEdge) (months : Int) : Reading :=
  { empty with edge := some edge, shift := { Shift.none with months := months } }

theorem ofTokens?_edge (edge : MonthEdge) (step : MonthStep)
    (small : step.months.natAbs < 2 ^ 63) :
    ofTokens? [.monthEdge edge, step.token] = some (ofEdge edge step.months) := by
  have clamped : clamp (0 + step.months) = step.months := by
    rw [clamp]
    omega
  have added : Shift.none.add .month step.months = { Shift.none with months := step.months } :=
    congrArg (fun months => { Shift.none with months := months }) clamped
  rw [ofEdge, ← added]
  rfl

theorem shiftedDay?_of_supported {r : Reading} {today months : Int}
    (total : r.shift.totalMonths? = some months)
    (supported : isSupportedYear ((monthIndex today + months) / 12) = true) :
    r.shiftedDay? today = some (monthsLater today months) := by
  rw [shiftedDay?, total, Option.bind_eq_bind, Option.bind_some]
  -- Without months to add the day is not taken apart, but its parts would give it back.
  split
  next none => rw [none, monthsLater_zero]
  next => exact addMonths?_eq supported

theorem day?_ofEdge {today months : Int} (edge : MonthEdge) (small : months.natAbs < 2 ^ 63)
    (supported : isSupportedYear ((monthIndex today + months) / 12) = true) :
    (ofEdge edge months).day? today = some (edgeDay (landing today months) edge) := by
  have total : (ofEdge edge months).shift.totalMonths? = some months := by
    have none : within64? 0 = some 0 := rfl
    change (within64? 0 >>= fun years => within64? (years + months)) = _
    rw [none, Option.bind_eq_bind, Option.bind_some, Int.zero_add, within64?_of_small small]
  have steps : (ofEdge edge months).day? today =
      (ofEdge edge months).shiftedDay? today >>= fun day => some (toEdge day edge) := rfl
  rw [steps, shiftedDay?_of_supported total supported, Option.bind_eq_bind, Option.bind_some,
    toEdge_eq, monthIndex_eq_landing]

theorem local?_ofEdge {here months : Int} (edge : MonthEdge) (small : months.natAbs < 2 ^ 63)
    (supported : isSupportedYear ((monthIndex (dayOf here) + months) / 12) = true) :
    (ofEdge edge months).local? here =
      some (edgeDay (landing (dayOf here) months) edge * 86400 + secondOfDay here) := by
  refine local?_of_unshifted rfl (day?_ofEdge edge small supported) ?_
  change isSupported (dayOf (_ * 86400 + secondOfDay here)) = true
  rw [dayOf_add_clock _ (secondOfDay_lt here)]
  exact isSupported_landing edge supported

end Reading

theorem parse_edgePhrase (edge : MonthEdge) (step : MonthStep) {base offset : Int}
    (supportedBase : isSupportedInstant base = true)
    (supportedHere : isSupportedInstant (base + offset) = true)
    (supported : isSupportedYear ((monthIndex (dayOf (base + offset)) + step.months) / 12) = true) :
    parse (String.ofList (edgePhrase edge step)) base offset =
      .ok (edgeDay (landing (dayOf (base + offset)) step.months) edge * 86400 +
        secondOfDay (base + offset) - offset) := by
  have small : step.months.natAbs < 2 ^ 63 := by
    rw [isSupportedInstant, isSupported_iff_monthIndex] at supportedHere
    have here := bounds_of_isSupportedYear supportedHere
    have there := bounds_of_isSupportedYear supported
    omega
  rw [(isPhrase_edgePhrase edge step small).parse_eq (by simp)
    (Reading.ofTokens?_edge edge step small), Reading.resolve_of_unanchored rfl rfl,
    readAt_of_supported supportedBase supportedHere, Reading.local?_ofEdge edge small supported]
  rfl

end ConfigExpr.DatePhrase
