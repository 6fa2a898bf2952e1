import ConfigExpr.DatePhrase.Parse
import ConfigExpr.Proofs.DatePhrase.CivilForms
import ConfigExpr.Proofs.DatePhrase.Layouts

/-!
Whole phrases. A phrase in lower case, without blanks at its ends and without the form of a complete
civil time, means what its tokens mean together.
-/
namespace ConfigExpr.DatePhrase
open Text Scan

namespace Token
variable {text : List Char} {tokens : List Token}

inductive Reads : List Char → List Token → Prop where
  | nil {text : List Char} (nothing : stripStart isSeparator text = []) : Reads text []
  | cons {text start rest : List Char} {token : Token} {tokens : List Token}
      (starts : stripStart isSeparator text = start)
      (scanned : scan start = some (some token, rest))
      (tail : Reads rest tokens) : Reads text (token :: tokens)

theorem scan_nil : scan [] = none := rfl

theorem reads_nil : Reads [] [] :=
  .nil rfl

theorem Reads.readAll (reads : Reads text tokens) {steps : Nat} (enough : tokens.length ≤ steps) :
    readAll steps text = some tokens := by
  induction reads generalizing steps with
  | nil nothing =>
    rw [Token.readAll.eq_def]
    simp only [nothing]
  | @cons text start rest token tokens starts scanned tail ih =>
    obtain ⟨steps, rfl⟩ := Nat.exists_eq_add_one.mpr (Nat.lt_of_lt_of_le (Nat.succ_pos _) enough)
    cases start with
    | nil => rw [scan_nil] at scanned; cases scanned
    | cons c more =>
      rw [Token.readAll.eq_def]
      simp only [starts, scanned, ih (Nat.le_of_succ_le_succ enough), Option.map_some]

theorem Reads.tokens? (reads : Reads text tokens) (enough : tokens.length ≤ text.length) :
    tokens? text = some tokens :=
  reads.readAll enough

theorem stripStart_of_stops (stops : Stops isSeparator text) : stripStart isSeparator text = text :=
  dropWhile_stops stops

theorem stripStart_blank (stops : Stops isSeparator text) :
    stripStart isSeparator (' ' :: text) = text :=
  dropWhile_append (List.forall_mem_singleton.mpr rfl) stops

theorem tokens?_of_scan (stops : Stops isSeparator text) (filled : text ≠ [])
    (fails : ∀ token rest, scan text ≠ some (some token, rest)) : tokens? text = none := by
  cases text with
  | nil => exact absurd rfl filled
  | cons c rest =>
    rw [tokens?, List.length_cons, readAll.eq_def]
    simp only [stripStart_of_stops stops]

end Token

structure IsPhrase (text : List Char) (tokens : List Token) : Prop where
  start : Stops isBlank text
  ending : Stops isBlank text.reverse
  lower : text.map Char.toLower = text
  notRfc3339 : Rfc3339.scan text = none
  notRfc2822 : Rfc2822.scan text = none
  reads : Token.Reads text tokens
  enough : tokens.length ≤ text.length

theorem strip_of_stops {text : List Char} (start : Stops isBlank text)
    (ending : Stops isBlank text.reverse) : strip isBlank text = text := by
  rw [strip, stripStart, dropWhile_stops start, stripEnd, dropWhile_stops ending,
    List.reverse_reverse]

theorem parse_eq_parseTokens {text : List Char} (start : Stops isBlank text)
    (ending : Stops isBlank text.reverse) (notRfc3339 : Rfc3339.scan text = none)
    (notRfc2822 : Rfc2822.scan text = none) (filled : text ≠ []) (base offset : Int) :
    parse (String.ofList text) base offset = parseTokens text base offset := by
  have notCivil := Rfc3339.parse?_of_scan notRfc3339
  have notMail := Rfc2822.parse?_of_scan notRfc2822
  rw [parse, String.toList_ofList, strip_of_stops start ending]
  cases text with
  | nil => exact absurd rfl filled
  | cons c rest => simp only [notCivil, notMail]

theorem parse_of_reads {text : List Char} {tokens : List Token} (start : Stops isBlank text)
    (ending : Stops isBlank text.reverse) (notRfc3339 : Rfc3339.scan text = none)
    (notRfc2822 : Rfc2822.scan text = none) (reads : Token.Reads (text.map Char.toLower) tokens)
    (enough : tokens.length ≤ text.length) (filled : tokens ≠ []) (base offset : Int) :
    parse (String.ofList text) base offset =
      understood (Reading.ofTokens? tokens) >>= fun reading => reading.resolve base offset := by
  have nonempty : text ≠ [] := by
    rintro rfl
    exact filled (List.eq_nil_of_length_eq_zero (Nat.le_zero.mp enough))
  have scanned := reads.tokens? (by rwa [List.length_map])
  rw [parse_eq_parseTokens start ending notRfc3339 notRfc2822 nonempty, parseTokens, scanned]
  rfl

theorem IsPhrase.parse_eq {text : List Char} {tokens : List Token} (phrase : IsPhrase text tokens)
    (filled : tokens ≠ []) {r : Reading} (means : Reading.ofTokens? tokens = some r)
    (base offset : Int) : parse (String.ofList text) base offset = r.resolve base offset := by
  rw [parse_of_reads phrase.start phrase.ending phrase.notRfc3339 phrase.notRfc2822
    (phrase.lower.symm ▸ phrase.reads) phrase.enough filled, means]
  rfl

section Layouts
variable {n : Nat} {p : Char → Bool} {rest : List Char} (hour : DigitRun n)
  (minute second : DigitRun 2) (half : Option Half)

def clockText : List Char :=
  hour.digits ++ ':' :: (minute.digits ++ ':' :: (second.digits ++ Token.halfText half))

variable {hour minute second half}

theorem clockText_stops (positive : 0 < n) (others : asciiDigits.any p = false) :
    Stops p (clockText hour minute second half) :=
  hour.stops positive others

theorem clockText_reverse_stops :
    Stops isBlank ((clockText hour minute second half).reverse ++ rest) := by
  simp only [clockText, List.reverse_append, List.reverse_cons, List.append_assoc]
  match half with
  | none => exact second.reverse_stops (by decide) rfl
  | some .am | some .pm => exact stops_cons rfl

@[simp] theorem clockText_map_toLower :
    (clockText hour minute second half).map Char.toLower = clockText hour minute second half := by
  simp only [clockText, List.map_append, List.map_cons, DigitRun.map_toLower]
  match half with
  | none | some .am | some .pm => rfl

theorem scan_clockText (positive : 0 < n) (short : n ≤ 2) :
    Token.scan (clockText hour minute second half) =
      some (some (Token.ofClock hour minute second half), []) := by
  refine Token.scan_time hour minute second positive short ?_ (Token.halfOfDay_halfText half)
  match half with
  | none => exact stops_nil
  | some .am | some .pm => exact stops_cons rfl

variable {date : List Char} {token : Token}

theorem isPhrase_dated (positive : 0 < n) (short : n ≤ 2)
    (start : ∀ {p : Char → Bool} {rest}, asciiDigits.any p = false → Stops p (date ++ rest))
    (lower : date.map Char.toLower = date)
    (notRfc3339 : Rfc3339.scan (date ++ ' ' :: clockText hour minute second half) = none)
    (notRfc2822 : Rfc2822.scan (date ++ ' ' :: clockText hour minute second half) = none)
    (scanned : Token.scan (date ++ ' ' :: clockText hour minute second half) =
      some (some token, ' ' :: clockText hour minute second half)) :
    IsPhrase (date ++ ' ' :: clockText hour minute second half)
      [token, Token.ofClock hour minute second half] where
  start := start rfl
  ending := by
    rw [List.reverse_append, List.reverse_cons, List.append_assoc]
    exact clockText_reverse_stops
  lower := by
    rw [List.map_append, List.map_cons, lower, clockText_map_toLower]
    rfl
  notRfc3339 := notRfc3339
  notRfc2822 := notRfc2822
  reads := .cons (Token.stripStart_of_stops (start rfl)) scanned
    (.cons (Token.stripStart_blank (clockText_stops positive rfl))
      (scan_clockText positive short) Token.reads_nil)
  enough := by
    simp only [clockText, List.length_append, List.length_cons, List.length_nil]
    omega

variable (year : DigitRun 4) (month day : DigitRun 2)

def isoText : List Char :=
  year.digits ++ '-' :: (month.digits ++ '-' :: day.digits)

def slashText : List Char :=
  year.digits ++ '/' :: (month.digits ++ '/' :: day.digits)

def americanText : List Char :=
  month.digits ++ '/' :: (day.digits ++ '/' :: year.digits)

def dayFirstText : List Char :=
  day.digits ++ '.' :: (month.digits ++ '.' :: year.digits)

theorem isPhrase_iso (positive : 0 < n) (short : n ≤ 2) :
    IsPhrase (isoText year month day ++ ' ' :: clockText hour minute second half)
      [Token.ofDate year month day, Token.ofClock hour minute second half] := by
  refine isPhrase_dated positive short ?_ ?_ ?_ ?_ ?_ <;>
    simp only [isoText, List.append_assoc, List.cons_append, List.map_append, List.map_cons,
      DigitRun.map_toLower]
  · exact year.stops (by decide)
  · rfl
  · match half with
    | none =>
      exact Rfc3339.scan_without_offset year month day minute second hour short stops_nil stops_nil
    | some .am | some .pm =>
      exact Rfc3339.scan_without_offset year month day minute second hour short (stops_cons rfl)
        (stops_cons rfl)
  · exact Rfc2822.scan_of_year year
  · exact Token.scan_iso year month day (stops_cons rfl)

theorem isPhrase_slash (positive : 0 < n) (short : n ≤ 2) :
    IsPhrase (slashText year month day ++ ' ' :: clockText hour minute second half)
      [Token.ofDate year month day, Token.ofClock hour minute second half] := by
  refine isPhrase_dated positive short ?_ ?_ ?_ ?_ ?_ <;>
    simp only [slashText, List.append_assoc, List.cons_append, List.map_append, List.map_cons,
      DigitRun.map_toLower]
  · exact year.stops (by decide)
  · rfl
  · exact Rfc3339.scan_of_char year (stops_cons rfl)
  · exact Rfc2822.scan_of_year year
  · exact Token.scan_slash year month day

theorem isPhrase_american (positive : 0 < n) (short : n ≤ 2) :
    IsPhrase (americanText year month day ++ ' ' :: clockText hour minute second half)
      [Token.ofDate year month day, Token.ofClock hour minute second half] := by
  refine isPhrase_dated positive short ?_ ?_ ?_ ?_ ?_ <;>
    simp only [americanText, List.append_assoc, List.cons_append, List.map_append, List.map_cons,
      DigitRun.map_toLower]
  · exact month.stops (by decide)
  · rfl
  · exact Rfc3339.scan_of_fixedNumber (month.fixedNumber_fails (by decide) (stops_cons rfl))
  · exact Rfc2822.scan_of_run month (stops_cons (by decide))
  · exact Token.scan_american year month day (stops_cons (by decide))

theorem isPhrase_dayFirst (positive : 0 < n) (short : n ≤ 2) :
    IsPhrase (dayFirstText year month day ++ ' ' :: clockText hour minute second half)
      [Token.ofDate year month day, Token.ofClock hour minute second half] := by
  refine isPhrase_dated positive short ?_ ?_ ?_ ?_ ?_ <;>
    simp only [dayFirstText, List.append_assoc, List.cons_append, List.map_append, List.map_cons,
      DigitRun.map_toLower]
  · exact day.stops (by decide)
  · rfl
  · exact Rfc3339.scan_of_fixedNumber (day.fixedNumber_fails (by decide) (stops_cons rfl))
  · exact Rfc2822.scan_of_run day (stops_cons (by decide))
  · exact Token.scan_dayFirst year month day (stops_cons (by decide))

theorem isPhrase_clock_iso (hour : DigitRun 2) :
    IsPhrase (clockText hour minute second none ++ ' ' :: isoText year month day)
      [Token.ofClock hour minute second none, Token.ofDate year month day] := by
  constructor <;>
    simp only [clockText, isoText, Token.halfText, List.append_assoc, List.cons_append,
      List.nil_append, List.reverse_append, List.reverse_cons, List.map_append, List.map_cons,
      DigitRun.map_toLower]
  case start => exact hour.stops (by decide) rfl
  case ending => exact day.reverse_stops (by decide) rfl
  case lower => rfl
  case notRfc3339 =>
    exact Rfc3339.scan_of_fixedNumber (hour.fixedNumber_fails (by decide) (stops_cons rfl))
  case notRfc2822 => exact Rfc2822.scan_of_run hour (stops_cons (by decide))
  case reads =>
    have date := Token.scan_iso year month day stops_nil
    rw [List.append_nil] at date
    exact .cons (Token.stripStart_of_stops (hour.stops (by decide) rfl))
      (Token.scan_time hour minute second (by decide) (by decide) (stops_cons rfl)
        (Token.halfOfDay_digits year))
      (.cons (Token.stripStart_blank (year.stops (by decide) rfl)) date Token.reads_nil)
  case enough =>
    simp only [List.length_append, List.length_cons, List.length_nil]
    omega

theorem isPhrase_timestamp {seconds : Int} (low : -2 ^ 63 ≤ seconds) (high : seconds < 2 ^ 63) :
    IsPhrase ('@' :: Numeral.ofInt seconds) [.timestamp seconds] where
  start := stops_cons (by decide)
  ending := by
    have last {rest} : Stops isBlank ((Numeral.ofNat seconds.natAbs).reverse ++ rest) :=
      (DigitRun.ofNumeral seconds.natAbs).reverse_stops (DigitRun.length_numeral_pos _) rfl
    rw [Numeral.ofInt]
    split <;> simp only [List.reverse_cons, List.append_assoc] <;> exact last
  lower := by
    have digits : (Numeral.ofNat seconds.natAbs).map Char.toLower = Numeral.ofNat seconds.natAbs :=
      (DigitRun.ofNumeral seconds.natAbs).map_toLower
    rw [Numeral.ofInt]
    split <;> simp only [List.map_cons, digits] <;> rfl
  notRfc3339 := Rfc3339.scan_of_fixedNumber
    (bind_of_fails (exactly_stops (by decide) (stops_cons rfl)))
  notRfc2822 := Rfc2822.scan_without_day (by decide) (by decide) (by decide)
  reads := .cons (Token.stripStart_of_stops (stops_cons rfl)) (Token.scan_timestamp low high)
    Token.reads_nil
  enough := Nat.succ_le_succ (Nat.zero_le _)

end Layouts

end ConfigExpr.DatePhrase
