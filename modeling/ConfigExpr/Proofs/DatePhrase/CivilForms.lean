import ConfigExpr.Proofs.DatePhrase.DigitRuns

/-!
Texts that are no complete civil time. A date without an offset has not the form of RFC 3339, and a
text whose first number is not followed by a blank has not that of RFC 2822.
-/
namespace ConfigExpr.DatePhrase
open Text Scan

namespace Rfc3339
variable {n : Nat} {text rest : List Char}

theorem parse?_of_scan (fails : scan text = none) : parse? text = none := by
  rw [parse?, fails]

theorem scan_of_fixedNumber (noYear : fixedNumber 4 text = none) : scan text = none :=
  bind_of_fails noYear

theorem scan_of_char (year : DigitRun 4) (other : Stops (· == '-') rest) :
    scan (year.digits ++ rest) = none :=
  (bind_of_takes year.fixedNumber_takes).trans (bind_of_fails (char_fails other))

theorem fraction_stops (stops : Stops (· == '.') text) : fraction text = some ((), text) := by
  cases text with
  | nil => rfl
  | cons c rest =>
    have other : c ≠ '.' := beq_eq_false_iff_ne.mp (stops c rfl)
    rw [fraction.eq_2 _ fun _ same => other (List.cons.inj same).1]

def startsOffset (c : Char) : Bool :=
  (c == 'Z' || c == 'z') || (c == '+' || c == '-' || c == '\u2212')

theorem offset_fails (stops : Stops startsOffset text) : offset text = none := by
  have notUtc : Stops (fun c => c == 'Z' || c == 'z') text :=
    fun c first => (Bool.or_eq_false_iff.mp (stops c first)).1
  have notSign : Stops (fun c => c == '+' || c == '-' || c == '\u2212') text :=
    fun c first => (Bool.or_eq_false_iff.mp (stops c first)).2
  have noSign : numericOffset text = none := bind_of_fails (bind_of_fails (one_fails notSign))
  rw [offset, firstOf_of_fails (bind_of_fails (one_fails notUtc)), firstOf_of_fails noSign]
  rfl

theorem scan_without_hour (year : DigitRun 4) (month day : DigitRun 2)
    (noHour : fixedNumber 2 rest.tail = none) :
    scan (year.digits ++ '-' :: (month.digits ++ '-' :: (day.digits ++ rest))) = none := by
  rw [scan, bind_of_takes year.fixedNumber_takes, bind_of_takes char_takes,
    bind_of_takes month.fixedNumber_takes, bind_of_takes char_takes,
    bind_of_takes day.fixedNumber_takes]
  cases rest with
  | nil => rfl
  | cons c behind =>
    cases separates : isSeparator c with
    | false => exact bind_of_fails (one_fails (stops_cons separates))
    | true => exact (bind_of_takes (one_takes separates)).trans (bind_of_fails noHour)

theorem scan_without_offset (year : DigitRun 4) (month day minute second : DigitRun 2)
    (hour : DigitRun n) (short : n ≤ 2) (noFraction : Stops (· == '.') rest)
    (noOffset : Stops startsOffset rest) :
    scan (year.digits ++ '-' :: (month.digits ++ '-' :: (day.digits ++ ' ' ::
      (hour.digits ++ ':' :: (minute.digits ++ ':' :: (second.digits ++ rest)))))) = none := by
  rcases Nat.lt_or_eq_of_le short with one | rfl
  · exact scan_without_hour year month day (hour.fixedNumber_fails one (stops_cons (by decide)))
  · rw [scan, bind_of_takes year.fixedNumber_takes, bind_of_takes char_takes,
      bind_of_takes month.fixedNumber_takes, bind_of_takes char_takes,
      bind_of_takes day.fixedNumber_takes, bind_of_takes (one_takes rfl),
      bind_of_takes hour.fixedNumber_takes, bind_of_takes char_takes,
      bind_of_takes minute.fixedNumber_takes, bind_of_takes char_takes,
      bind_of_takes second.fixedNumber_takes, bind_of_takes (fraction_stops noFraction),
      bind_of_fails (offset_fails noOffset)]

end Rfc3339

namespace Rfc2822
variable {text rest : List Char} {c : Char}

theorem parse?_of_scan (fails : scan text = none) : parse? text = none := by
  rw [parse?, fails]

theorem abbreviation_fails {names : List String}
    (named : ∀ name ∈ names, name.toList.head?.any Char.isLower = true)
    (notLetter : c.toLower.isLower = false) : abbreviation names (c :: rest) = none := by
  match rest with
  | [] | [_] => rfl
  | d :: e :: behind =>
    have takes : Scan.exactly 3 (fun _ => true) (c :: d :: e :: behind) =
        some ([c, d, e], behind) := rfl
    have unknown :
        (names.findIdx? fun name => name.toList == [c, d, e].map Char.toLower) = none := by
      rw [List.findIdx?_eq_none_iff]
      intro name member
      rw [beq_eq_false_iff_ne]
      intro same
      have lower := named name member
      rw [same, List.map_cons, List.head?_cons, Option.any_some, notLetter] at lower
      cases lower
    rw [abbreviation, bind_of_takes takes, unknown]
    rfl

theorem weekday_absent (notLetter : c.toLower.isLower = false) :
    weekday (c :: rest) = some (none, c :: rest) := by
  rw [weekday, abbreviation_fails (by decide) notLetter]

theorem scan_of_digits {day : List Char} (filled : day ≠ [])
    (digits : ∀ c ∈ day, isAsciiDigit c = true) (rest : List Char) :
    blanks (day ++ rest) = some ([], day ++ rest) ∧
      weekday (day ++ rest) = some (none, day ++ rest) := by
  let run : DigitRun day.length := ⟨day, digits, rfl⟩
  refine ⟨blanks_stops (stops_append filled (run.forall_mem_not rfl)), ?_⟩
  cases day with
  | nil => exact absurd rfl filled
  | cons c more =>
    exact weekday_absent
      (run.forall_mem_not (p := fun c => c.toLower.isLower) rfl c List.mem_cons_self)

theorem scan_without_blank {day : List Char} (filled : day ≠ [])
    (digits : ∀ c ∈ day, isAsciiDigit c = true)
    (fits : day.length = 2 ∨ day.length < 2 ∧ Stops isAsciiDigit rest)
    (noBlank : Stops isBlank rest) : scan (day ++ rest) = none := by
  obtain ⟨start, noWeekday⟩ := scan_of_digits filled digits rest
  rw [scan, bind_of_takes start, bind_of_takes noWeekday, bind_of_takes start,
    bind_of_takes (Scan.upTo_takes filled digits fits), bind_of_fails (blanks1_fails noBlank)]

theorem scan_of_lastWord {day word : List Char} (filled : day ≠ [])
    (digits : ∀ c ∈ day, isAsciiDigit c = true) (short : day.length ≤ 2)
    (noBlank : ∀ c ∈ word, isBlank c = false) : scan (day ++ ' ' :: word) = none := by
  obtain ⟨start, noWeekday⟩ := scan_of_digits filled digits (' ' :: word)
  have stops {text : List Char} (part : ∀ c ∈ text, c ∈ word) : Stops isBlank text :=
    fun c first => noBlank c (part c (List.mem_of_mem_head? first))
  have takesDay : Scan.upTo 2 isAsciiDigit (day ++ ' ' :: word) = some (day, ' ' :: word) :=
    Scan.upTo_takes filled digits (by
      rcases Nat.lt_or_eq_of_le short with one | two
      · exact .inr ⟨one, stops_cons (by decide)⟩
      · exact .inl two)
  have gap : blanks1 (' ' :: word) = some ([' '], word) :=
    some1_takes (List.cons_ne_nil _ _) (List.forall_mem_singleton.mpr (by decide))
      (stops fun c member => member)
  rw [scan, bind_of_takes start, bind_of_takes noWeekday, bind_of_takes start,
    bind_of_takes takesDay, bind_of_takes gap]
  cases named : abbreviation monthAbbreviations word with
  | none => exact bind_of_fails named
  | some found =>
    obtain ⟨month, behind⟩ := found
    obtain ⟨taken, rest, letters, known⟩ := bind_eq_some.mp named
    obtain ⟨_, -, same⟩ := Option.map_eq_some_iff.mp known
    obtain ⟨-, rfl⟩ := Prod.mk.inj same
    obtain ⟨rfl, -⟩ := exactly_eq_some letters
    rw [bind_of_takes named, bind_of_fails (blanks1_fails (stops fun c member =>
      List.mem_append_right taken member))]

theorem scan_of_run (number : DigitRun 2) (noBlank : Stops isBlank rest) :
    scan (number.digits ++ rest) = none :=
  scan_without_blank (number.digits_ne_nil (by decide)) number.ascii (.inl number.length_eq) noBlank

theorem scan_of_longRun {n : Nat} (number : DigitRun n) (long : 2 < n) :
    scan (number.digits ++ rest) = none := by
  have length := number.length_eq
  rw [← List.take_append_drop 2 number.digits, List.append_assoc]
  refine scan_without_blank (List.ne_nil_of_length_pos (by rw [List.length_take]; omega))
    (fun c member => number.ascii c (List.mem_of_mem_take member))
    (.inl (by rw [List.length_take]; omega)) ?_
  have digits : ∀ c ∈ number.digits, isBlank c = false := number.forall_mem_not rfl
  exact stops_append (List.ne_nil_of_length_pos (by rw [List.length_drop]; omega)) fun c member =>
    digits c (List.mem_of_mem_drop member)

theorem scan_of_year (year : DigitRun 4) : scan (year.digits ++ rest) = none :=
  scan_of_longRun year (by decide)

theorem scan_of_number {n : Nat} (number : DigitRun n) (filled : 0 < n)
    (noDigit : Stops isAsciiDigit rest) (noBlank : Stops isBlank rest) :
    scan (number.digits ++ rest) = none := by
  by_cases long : 2 < n
  · exact scan_of_longRun number long
  · refine scan_without_blank (number.digits_ne_nil filled) number.ascii ?_ noBlank
    rw [number.length_eq]
    rcases Nat.lt_or_eq_of_le (Nat.not_lt.mp long) with one | two
    · exact .inr ⟨one, noDigit⟩
    · exact .inl two

theorem weekday_without_comma (noComma : ',' ∉ text) :
    weekday text = none ∨ weekday text = some (none, text) := by
  rw [weekday]
  cases named : abbreviation weekdayAbbreviations text with
  | none => exact .inr rfl
  | some found =>
    obtain ⟨day, rest⟩ := found
    obtain ⟨taken, behind, letters, known⟩ := bind_eq_some.mp named
    obtain ⟨_, -, same⟩ := Option.map_eq_some_iff.mp known
    obtain ⟨-, rfl⟩ := Prod.mk.inj same
    obtain ⟨rfl, -⟩ := exactly_eq_some letters
    match behind with
    | [] => exact .inl rfl
    | c :: rest =>
      have other : c ≠ ',' := fun comma =>
        noComma (comma ▸ List.mem_append_right taken List.mem_cons_self)
      exact .inl (by simp [other])

theorem scan_without_comma (noBlank : Stops isBlank text) (noDigit : Stops isAsciiDigit text)
    (noComma : ',' ∉ text) : scan text = none := by
  rw [scan, bind_of_takes (blanks_stops noBlank)]
  rcases weekday_without_comma noComma with fails | absent
  · exact bind_of_fails fails
  · rw [bind_of_takes absent, bind_of_takes (blanks_stops noBlank),
      bind_of_fails (upTo_fails noDigit)]

theorem scan_without_day (notBlank : isBlank c = false) (notLetter : c.toLower.isLower = false)
    (notDigit : isAsciiDigit c = false) : scan (c :: rest) = none := by
  have start : Stops isBlank (c :: rest) := stops_cons notBlank
  rw [scan, bind_of_takes (blanks_stops start), bind_of_takes (weekday_absent notLetter),
    bind_of_takes (blanks_stops start), bind_of_fails (upTo_fails (stops_cons notDigit))]

end Rfc2822

end ConfigExpr.DatePhrase
