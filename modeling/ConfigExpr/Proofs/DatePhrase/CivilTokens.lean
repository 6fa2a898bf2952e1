import ConfigExpr.Proofs.DatePhrase.CivilReadings
import ConfigExpr.Proofs.DatePhrase.Phrases

/-!
Complete civil times as tokens. What the form of RFC 3339 takes is a date, a time of day with its
separator in front, and an offset, which tokens read as the same three parts. A leap second and an
offset with the minus sign of Unicode are the only things that tokens do not know.
-/
namespace ConfigExpr.DatePhrase
open Calendar Text Scan

inductive ZoneText where
  | utc (capital : Bool)
  | signed (west : Bool) (hours minutes : DigitRun 2)

namespace ZoneText

def text : ZoneText → List Char
  | utc capital => [if capital then 'Z' else 'z']
  | signed west hours minutes => Token.zoneText west hours minutes

def seconds : ZoneText → Int
  | utc _ => 0
  | signed west hours minutes => Token.ofZone west hours minutes

variable (zone : ZoneText)

theorem map_toLower : zone.text.map Char.toLower =
    match zone with
    | utc _ => ['z']
    | signed _ _ _ => zone.text := by
  cases zone with
  | utc capital =>
    cases capital with
    | false | true => rfl
  | signed west hours minutes => exact Token.zoneText_map_toLower west hours minutes

theorem lower_stops {p : Char → Bool} (others : ['z', '+', '-'].any p = false) :
    Stops p (zone.text.map Char.toLower) := by
  have each := List.any_eq_false.mp others
  rw [zone.map_toLower]
  cases zone with
  | utc capital => exact stops_cons (Bool.eq_false_iff.mpr (each 'z' (by decide)))
  | signed west hours minutes =>
    cases west with
    | false => exact stops_cons (Bool.eq_false_iff.mpr (each '+' (by decide)))
    | true => exact stops_cons (Bool.eq_false_iff.mpr (each '-' (by decide)))

theorem scan_lower : Token.scan (zone.text.map Char.toLower) =
    some (some (.offset zone.seconds), []) := by
  rw [zone.map_toLower]
  cases zone with
  | utc capital => rfl
  | signed west hours minutes =>
    have scanned : Token.scan (Token.zoneText west hours minutes ++ []) =
        some (some (.offset (Token.ofZone west hours minutes)), []) :=
      Token.scan_zoneText west hours minutes
    rwa [List.append_nil] at scanned

end ZoneText

inductive IsFraction : List Char → Prop where
  | absent : IsFraction []
  | written {n : Nat} (run : DigitRun n) (filled : 0 < n) : IsFraction ('.' :: run.digits)

namespace IsFraction
variable {fraction : List Char}

theorem map_toLower (is : IsFraction fraction) : fraction.map Char.toLower = fraction := by
  cases is with
  | absent => rfl
  | written run _ =>
    rw [List.map_cons, run.map_toLower]
    rfl

theorem secondPart (is : IsFraction fraction) (second : DigitRun 2) {rest : List Char}
    (noFraction : Stops ['.', ','].contains rest) (noDigit : Stops isDecimalDigit rest) :
    Token.secondPart (':' :: (second.digits ++ (fraction ++ rest))) =
      some (second.digits, rest) := by
  cases is with
  | absent => exact Token.secondPart_takes second noFraction
  | written run filled => exact Token.secondPart_fraction second run filled noDigit

end IsFraction

namespace Rfc3339
variable {text rest : List Char}

theorem fraction_eq_some {u : Unit} (takes : fraction text = some (u, rest)) :
    ∃ part, IsFraction part ∧ text = part ++ rest := by
  unfold fraction at takes
  split at takes
  next behind =>
    obtain ⟨digits, rest', taken, done⟩ := bind_eq_some.mp takes
    obtain ⟨rfl, filled, ascii⟩ := some1_eq_some taken
    obtain ⟨-, rfl⟩ := Prod.mk.inj (Option.some.inj done)
    exact ⟨_, .written ⟨digits, ascii, rfl⟩ (List.length_pos_iff.mpr filled), rfl⟩
  next =>
    obtain ⟨-, rfl⟩ := Prod.mk.inj (Option.some.inj takes)
    exact ⟨[], .absent, rfl⟩

theorem sign_eq_some {direction : Int} (takes : sign text = some (direction, rest))
    (ascii : '\u2212' ∉ text) :
    ∃ west, text = Token.signOf west :: rest ∧ direction = if west then -1 else 1 := by
  obtain ⟨c, behind, rfl, isSign, done⟩ := bind_one_eq_some takes
  obtain ⟨rfl, rfl⟩ := Prod.mk.inj (Option.some.inj done)
  simp only [Bool.or_eq_true, beq_iff_eq] at isSign
  rcases isSign with (rfl | rfl) | rfl
  · exact ⟨false, rfl, rfl⟩
  · exact ⟨true, rfl, rfl⟩
  · exact absurd List.mem_cons_self ascii

theorem minuteNumber_eq_some {value : Nat} (takes : minuteNumber text = some (value, rest)) :
    ∃ run : DigitRun 2, text = run.digits ++ rest ∧ value = run.value := by
  obtain ⟨run, behind, rfl, checked⟩ := bind_fixedNumber_eq_some takes
  obtain ⟨_, behind, small, done⟩ := bind_eq_some.mp checked
  obtain ⟨rfl, rfl⟩ := Prod.mk.inj (Option.some.inj done)
  rw [Scan.require, Option.ite_none_right_eq_some] at small
  obtain ⟨-, rfl⟩ := Prod.mk.inj (Option.some.inj small.2)
  exact ⟨run, rfl, rfl⟩

theorem offset_eq_some {zone : Int} (takes : offset text = some (zone, rest))
    (ascii : '\u2212' ∉ text) :
    ∃ written : ZoneText, text = written.text ++ rest ∧ zone = written.seconds := by
  rcases firstOf_cons_eq_some takes with utc | others
  · obtain ⟨c, behind, rfl, letter, done⟩ := bind_one_eq_some utc
    obtain ⟨rfl, rfl⟩ := Prod.mk.inj (Option.some.inj done)
    rw [Bool.or_eq_true, beq_iff_eq, beq_iff_eq] at letter
    rcases letter with rfl | rfl
    · exact ⟨.utc true, rfl, rfl⟩
    · exact ⟨.utc false, rfl, rfl⟩
  · obtain numeric | none := firstOf_cons_eq_some others
    case inr => cases none
    obtain ⟨direction, _, signed, numbers⟩ := bind_eq_some.mp numeric
    obtain ⟨west, rfl, rfl⟩ := sign_eq_some signed ascii
    obtain ⟨hours, _, rfl, colon⟩ := bind_fixedNumber_eq_some numbers
    obtain ⟨_, rfl, last⟩ := bind_char_eq_some colon
    obtain ⟨_, _, counted, done⟩ := bind_eq_some.mp last
    obtain ⟨minutes, rfl, rfl⟩ := minuteNumber_eq_some counted
    obtain ⟨rfl, rfl⟩ := Prod.mk.inj (Option.some.inj done)
    refine ⟨.signed west hours minutes, ?_, ?_⟩
    · rw [ZoneText.text, Token.zoneText, List.cons_append, List.append_assoc, List.cons_append]
    · rw [ZoneText.seconds, Token.ofZone]
      cases west with
      | false => exact Int.one_mul _
      | true => exact Int.neg_one_mul _

end Rfc3339

structure CivilText where
  year : DigitRun 4
  month : DigitRun 2
  day : DigitRun 2
  separator : Char
  separates : Rfc3339.isSeparator separator = true
  hour : DigitRun 2
  minute : DigitRun 2
  second : DigitRun 2
  fraction : List Char
  isFraction : IsFraction fraction
  zone : ZoneText

namespace CivilText

def text (w : CivilText) : List Char :=
  w.year.digits ++ '-' :: (w.month.digits ++ '-' :: (w.day.digits ++ w.separator ::
    (w.hour.digits ++ ':' :: (w.minute.digits ++ ':' :: (w.second.digits ++
      (w.fraction ++ w.zone.text))))))

def time (w : CivilText) : CivilTime :=
  ⟨w.year.value, w.month.value, w.day.value, w.hour.value, w.minute.value, w.second.value,
    w.zone.seconds⟩

def tokens (w : CivilText) : List Token :=
  [Token.ofDate w.year w.month w.day, Token.ofClock w.hour w.minute w.second none,
    .offset w.zone.seconds]

end CivilText

theorem Rfc3339.scan_eq_some {text : List Char} {t : CivilTime} (takes : scan text = some (t, []))
    (ascii : '\u2212' ∉ text) : ∃ w : CivilText, text = w.text ∧ t = w.time := by
  -- The form is one fixed sequence, so the text is taken apart from the front.
  obtain ⟨year, _, rfl, firstHyphen⟩ := bind_fixedNumber_eq_some takes
  obtain ⟨_, rfl, inYear⟩ := bind_char_eq_some firstHyphen
  obtain ⟨month, _, rfl, secondHyphen⟩ := bind_fixedNumber_eq_some inYear
  obtain ⟨_, rfl, inMonth⟩ := bind_char_eq_some secondHyphen
  obtain ⟨day, _, rfl, joined⟩ := bind_fixedNumber_eq_some inMonth
  obtain ⟨separator, _, rfl, separates, onDay⟩ := bind_one_eq_some joined
  obtain ⟨hour, _, rfl, firstColon⟩ := bind_fixedNumber_eq_some onDay
  obtain ⟨_, rfl, inHour⟩ := bind_char_eq_some firstColon
  obtain ⟨minute, _, rfl, secondColon⟩ := bind_fixedNumber_eq_some inHour
  obtain ⟨_, rfl, inMinute⟩ := bind_char_eq_some secondColon
  obtain ⟨second, _, rfl, inSecond⟩ := bind_fixedNumber_eq_some inMinute
  obtain ⟨_, _, dropped, shifted⟩ := bind_eq_some.mp inSecond
  obtain ⟨fraction, isFraction, rfl⟩ := fraction_eq_some dropped
  obtain ⟨_, _, last, done⟩ := bind_eq_some.mp shifted
  simp only [List.mem_append, List.mem_cons, not_or] at ascii
  obtain ⟨-, -, -, -, -, -, -, -, -, -, -, -, asciiZone⟩ := ascii
  obtain ⟨zone, rfl, rfl⟩ := offset_eq_some last asciiZone
  obtain ⟨rfl, rfl⟩ := Prod.mk.inj (Option.some.inj done)
  rw [List.append_nil]
  exact ⟨⟨year, month, day, separator, separates, hour, minute, second, fraction, isFraction, zone⟩,
    rfl, rfl⟩

namespace CivilText
variable (w : CivilText)

def lowerClock : List Char :=
  w.hour.digits ++ ':' :: (w.minute.digits ++ ':' :: (w.second.digits ++
    (w.fraction ++ w.zone.text.map Char.toLower)))

theorem map_toLower : w.text.map Char.toLower = w.year.digits ++ '-' :: (w.month.digits ++ '-' ::
    (w.day.digits ++ w.separator.toLower :: w.lowerClock)) := by
  have hyphen : '-'.toLower = '-' := rfl
  have colon : ':'.toLower = ':' := rfl
  simp only [text, lowerClock, List.map_append, List.map_cons, DigitRun.map_toLower,
    w.isFraction.map_toLower, hyphen, colon]

theorem lowerClock_stops {p : Char → Bool} (others : asciiDigits.any p = false) :
    Stops p w.lowerClock :=
  w.hour.stops (by decide) others

theorem joined : ∃ mark behind,
    opt (char 't') (w.separator.toLower :: w.lowerClock) = some (mark, behind) ∧
      stripStart Token.isSeparator behind = w.lowerClock := by
  have start : Stops Token.isSeparator w.lowerClock := w.lowerClock_stops rfl
  have separates := w.separates
  simp only [Rfc3339.isSeparator, Bool.or_eq_true, beq_iff_eq] at separates
  rcases separates with (capital | small) | blank
  · rw [capital]
    exact ⟨_, _, opt_of_takes char_takes, Token.stripStart_of_stops start⟩
  · rw [small]
    exact ⟨_, _, opt_of_takes char_takes, Token.stripStart_of_stops start⟩
  · rw [blank]
    exact ⟨_, _, opt_of_fails (char_fails (stops_cons rfl)), Token.stripStart_blank start⟩

theorem reads : Token.Reads (w.text.map Char.toLower) w.tokens := by
  obtain ⟨mark, behind, joined, start⟩ := w.joined
  have clock : Token.scan w.lowerClock = some (some (Token.ofClock w.hour w.minute w.second none),
      w.zone.text.map Char.toLower) := by
    have unmarked : Token.halfOfDay ([] ++ w.zone.text.map Char.toLower) =
        some (none, [] ++ w.zone.text.map Char.toLower) :=
      Token.halfOfDay_absent (fun c member => nomatch member) (w.zone.lower_stops rfl)
        (w.zone.lower_stops rfl)
    exact Token.scan_clock w.hour w.minute w.second (by decide) (by decide)
      (w.isFraction.secondPart w.second (w.zone.lower_stops rfl) (w.zone.lower_stops rfl)) unmarked
  rw [w.map_toLower]
  exact .cons (Token.stripStart_of_stops (w.year.stops (by decide) rfl))
    (Token.scan_isoDate w.year w.month w.day joined)
    (.cons start clock
      (.cons (Token.stripStart_of_stops (w.zone.lower_stops rfl)) w.zone.scan_lower Token.reads_nil))

theorem parseTokens_eq (valid : w.time.isValid = true) (noLeap : w.second.value ≤ 59) {base : Int}
    (supportedBase : isSupportedInstant base = true) (offset : Int) :
    parseTokens w.text base offset =
      if isSupportedInstant (base + w.time.offset) then .ok w.time.instant
      else .error .noLocalTime := by
  simp only [CivilTime.isValid, Bool.and_eq_true, decide_eq_true_eq] at valid
  obtain ⟨⟨⟨⟨⟨⟨⟨⟨-, january⟩, december⟩, first⟩, last⟩, hours⟩, minutes⟩, -⟩, zone⟩ := valid
  have months : 1 ≤ w.month.value ∧ w.month.value ≤ 12 := ⟨january, december⟩
  have days : 1 ≤ w.day.value ∧ w.day.value ≤ 31 :=
    ⟨first, Nat.le_trans last (monthLength_le _ _)⟩
  have scanned : Token.tokens? (w.text.map Char.toLower) = some w.tokens := by
    refine w.reads.tokens? ?_
    simp only [w.map_toLower, tokens, lowerClock, List.length_append, List.length_cons,
      List.length_nil]
    omega
  have hour : w.hour.value < 24 := hours
  have minute : w.minute.value < 60 := minutes
  have means : Reading.ofTokens? w.tokens = some _ :=
    Reading.ofTokens?_zoned months days (Reading.hourOfDay?_unmarked hour) minute
      (Nat.lt_succ_of_le noLeap) zone
  have few : w.hour.value * 3600 + w.minute.value * 60 + w.second.value < 86400 := by omega
  have shown := Reading.resolve_zoned (Nat.le_of_lt_succ w.year.value_lt) months days few
    w.zone.seconds base offset
  have second : min w.second.value 59 = w.second.value := Nat.min_eq_left noLeap
  have instant : (dayNumber w.year.value w.month.value 1 + (w.day.value - 1)) * 86400 +
      (w.hour.value * 3600 + w.minute.value * 60 + w.second.value : Nat) - w.zone.seconds =
        w.time.instant := by
    simp only [CivilTime.instant, CivilTime.dayNumber, time, dayNumber, second]
    omega
  rw [parseTokens, scanned, understood, Outcome.ok_bind, means, understood, Outcome.ok_bind, shown,
    readAt_const supportedBase, instant]
  rfl

end CivilText

/-- A text in the form of RFC 3339 denotes the same instant when it is read as tokens, unless the base
has no local time at the offset of the text. -/
theorem tokens_agree_with_complete_times {text : String} {t : CivilTime} {instant : Int}
    (scanned : Rfc3339.scan text.toList = some (t, []))
    (accepted : Rfc3339.parse? text.toList = some instant) (ascii : '\u2212' ∉ text.toList)
    (noLeap : t.second ≤ 59) {base : Int} (supportedBase : isSupportedInstant base = true)
    (offset : Int) :
    parseTokens text.toList base offset =
      if isSupportedInstant (base + t.offset) then .ok instant else .error .noLocalTime := by
  obtain ⟨w, whole, rfl⟩ := Rfc3339.scan_eq_some scanned ascii
  rw [Rfc3339.parse?, scanned] at accepted
  simp only [CivilTime.instant?, Option.ite_none_right_eq_some, Bool.and_eq_true] at accepted
  obtain ⟨⟨valid, -⟩, same⟩ := accepted
  rw [whole, w.parseTokens_eq valid noLeap supportedBase, Option.some.inj same]

theorem tokens_agree_with_complete_times_leap_day :
    let text := "0000-02-29t23:59:59.25-09:30"
    Rfc3339.scan text.toList = some (⟨0, 2, 29, 23, 59, 59, -34200⟩, []) ∧
    Rfc3339.parse? text.toList = some (-62162035201 + 9 * 3600 + 30 * 60) ∧
    '\u2212' ∉ text.toList ∧ isSupportedInstant 1418031515 = true ∧
    parseTokens text.toList 1418031515 7200 = .ok (-62162035201 + 9 * 3600 + 30 * 60) := by
  intro text
  have scanned : Rfc3339.scan text.toList = some (⟨0, 2, 29, 23, 59, 59, -34200⟩, []) := by decide
  have accepted : Rfc3339.parse? text.toList = some (-62162035201 + 9 * 3600 + 30 * 60) := by decide
  have ascii : '\u2212' ∉ text.toList := by decide
  have agree := tokens_agree_with_complete_times scanned accepted ascii (by decide)
    (show isSupportedInstant 1418031515 = true by decide) 7200
  rw [if_pos (by decide)] at agree
  exact ⟨scanned, accepted, ascii, by decide, agree⟩

/-- A time with an offset of one hour stops at a base in the last hour of the calendar. -/
theorem last_hour_stops_complete_times :
    let text := "2014-12-08T10:38:35+01:00"
    Rfc3339.parse? text.toList = some 1418031515 ∧ '\u2212' ∉ text.toList ∧
    isSupportedInstant 8210266876799 = true ∧
    parseTokens text.toList 8210266876799 0 = .error .noLocalTime := by
  intro text
  exact ⟨by decide, by decide, by decide, by decide⟩

end ConfigExpr.DatePhrase
