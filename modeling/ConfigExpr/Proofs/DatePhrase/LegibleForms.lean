import ConfigExpr.Proofs.DatePhrase.ForeignDigits
import ConfigExpr.Proofs.Outcome

/-!
What the forms of tokens take. A form whose numbers are read has taken digits of other scripts only
in numbers that its token does without, so a text that is read as tokens is legible.
-/
namespace ConfigExpr.DatePhrase
open Text Scan

/-- Whenever the form fits and its numbers are read, what it takes is excused under the name. -/
def TakesExcused (name : FormName) (form : Token.Form) : Prop :=
  Takes form fun piece token => token.isSome = true → name.Excuses piece

theorem TakesPlain.excused {name : FormName} {form : Token.Form} (plain : TakesPlain form) :
    TakesExcused name form :=
  Takes.mono plain fun _ _ plain _ => .plain plain

namespace Token
variable {digits : List Char}

theorem ascii_of_number? (read : (number? digits).isSome = true) :
    ∀ c ∈ digits, isAsciiDigit c = true := by
  obtain ⟨n, read⟩ := Option.isSome_iff_exists.mp read
  exact List.all_eq_true.mp (Option.ite_none_right_eq_some.mp read).1

theorem plain_of_number? (read : (number? digits).isSome = true) : Plain digits :=
  plain_of_ascii (ascii_of_number? read)

theorem plain_of_number64? {negative : Bool} (read : (number64? negative digits).isSome = true) :
    Plain digits := by
  refine plain_of_number? ?_
  cases known : number? digits with
  | none =>
    rw [number64?, known] at read
    cases read
  | some n => rfl

theorem isSome_bind {α β : Type} {x : Option α} {f : α → Option β}
    (read : (x >>= f).isSome = true) : x.isSome = true ∧ ∃ a, (f a).isSome = true := by
  cases x with
  | none => cases read
  | some a => exact ⟨rfl, a, read⟩

theorem plain_of_fullDate {year month day : List Char}
    (read : (fullDate year month day).isSome = true) : Plain year ∧ Plain month ∧ Plain day := by
  obtain ⟨yearRead, _, read⟩ := isSome_bind read
  obtain ⟨monthRead, _, read⟩ := isSome_bind read
  obtain ⟨dayRead, -⟩ := isSome_bind read
  exact ⟨plain_of_number? yearRead, plain_of_number? monthRead, plain_of_number? dayRead⟩

theorem ago_plain : TakesPlain agoForm :=
  takesPlain_word.bind fun _ => takesPlain_require.bind fun _ => takesPlain_pure

theorem keyword_plain : TakesPlain keywordForm :=
  takesPlain_word.bind fun _ => takesPlain_value.bind fun _ => takesPlain_pure

theorem monthEdge_plain : TakesPlain monthEdgeForm := by
  refine takesPlain_letters.bind fun edge => takesPlain_blanks1.bind fun _ =>
    takesPlain_letters.bind fun day => takesPlain_blanks1.bind fun _ =>
    takesPlain_word.bind fun of => takesPlain_require.bind fun _ => ?_
  split
  next => exact takesPlain_pure
  next => exact takesPlain_pure
  next => exact takesPlain_value

theorem directed_plain : TakesPlain directedForm :=
  takesPlain_letters.bind fun _ => takesPlain_value.bind fun _ => takesPlain_blanks1.bind fun _ =>
    takesPlain_word.bind fun _ => takesPlain_pure

theorem zone_plain : TakesPlain zoneForm :=
  takesPlain_word.bind fun _ => takesPlain_require.bind fun _ => takesPlain_pure

theorem weekday_plain : TakesPlain weekdayForm :=
  takesPlain_word.bind fun _ => takesPlain_pure

theorem halfMark_plain : TakesPlain halfMark :=
  (takesPlain_oneOf (by decide)).bind fun _ => (takesPlain_char (by decide)).opt.bind fun _ =>
    (takesPlain_char (by decide)).bind fun _ => (takesPlain_char (by decide)).opt.bind fun _ =>
    takesPlain_pure

theorem timestamp_excused : TakesExcused .timestamp timestampForm := by
  refine Takes.bind (takesPlain_char (by decide)) fun _ _ start => ?_
  refine Takes.bind (takesPlain_char (by decide)).opt fun _ _ sign => ?_
  refine takes_some1.bind fun | _, seconds, ⟨rfl, _⟩ => ?_
  refine takes_pure fun read => .plain ?_
  rw [Option.isSome_map] at read
  simp only [plain_append, start, sign, plain_of_number64? read, plain_nil, and_self]

theorem yearFirst_excused {name : FormName} {separator : Char} (other : isForeignDigit separator = false)
    {ending : List Char → List Char → List Char → Form}
    (ends : ∀ year month day, Takes (ending year month day) fun piece token =>
      Plain piece ∧ token = fullDate year month day) :
    TakesExcused name (do
      let year ← digitsOf 4
      char separator
      let month ← digitsUpTo2
      char separator
      let day ← digitsUpTo2
      ending year month day) := by
  refine takes_exactly.bind fun | _, year, ⟨rfl, _⟩ => ?_
  refine Takes.bind (takesPlain_char other) fun _ _ first => ?_
  refine takes_upTo.bind fun | _, month, ⟨rfl, _⟩ => ?_
  refine Takes.bind (takesPlain_char other) fun _ _ second => ?_
  refine takes_upTo.bind fun | _, day, ⟨rfl, _⟩ => ?_
  refine (ends year month day).mono fun | _, _, ⟨ended, rfl⟩, read => .plain ?_
  obtain ⟨year, month, day⟩ := plain_of_fullDate read
  simp only [plain_append, year, first, month, second, day, ended, and_self]

theorem iso_excused : TakesExcused .iso isoForm := by
  have hyphen : isForeignDigit '-' = false := by decide
  refine yearFirst_excused hyphen fun year month day => ?_
  refine Takes.bind (takesPlain_char (by decide)).opt fun _ _ mark => takes_pure ⟨?_, rfl⟩
  exact plain_append.mpr ⟨mark, plain_nil⟩

theorem slash_excused : TakesExcused .slash slashForm := by
  have slash : isForeignDigit '/' = false := by decide
  exact yearFirst_excused slash fun _ _ _ => takes_pure ⟨plain_nil, rfl⟩

theorem takes_yearEnd : Takes yearEnd fun piece taken =>
    taken = piece ∧ IsRun isDecimalDigit 4 4 piece := by
  refine takes_exactly.bind fun | _, year, ⟨rfl, run⟩ => ?_
  refine takes_wordEnd.bind fun | _, _, rfl => takes_pure ?_
  exact ⟨(List.append_nil _).symm, (List.append_nil year).symm ▸ run⟩

theorem american_excused : TakesExcused .american americanForm := by
  refine takes_upTo.bind fun | _, month, ⟨rfl, _⟩ => ?_
  refine Takes.bind (takesPlain_char (by decide)) fun _ _ first => ?_
  refine takes_upTo.bind fun | _, day, ⟨rfl, _⟩ => ?_
  refine Takes.bind (takesPlain_char (by decide)) fun _ _ second => ?_
  have short : Takes (do let year ← digitsOf 2; wordEnd; return year) fun piece taken =>
      taken = piece := by
    refine takes_exactly.bind fun | _, year, ⟨rfl, _⟩ => ?_
    exact takes_wordEnd.bind fun | _, _, rfl => takes_pure (List.append_nil _).symm
  have years := takes_firstOf (List.forall_mem_cons.mpr
    ⟨takes_yearEnd.mono fun _ _ taken => taken.1, List.forall_mem_singleton.mpr short⟩)
  refine years.bind fun | _, year, rfl => ?_
  refine takes_pure fun read => .plain ?_
  obtain ⟨yearRead, _, read⟩ := isSome_bind read
  obtain ⟨monthRead, _, read⟩ := isSome_bind read
  obtain ⟨dayRead, -⟩ := isSome_bind read
  simp only [plain_append, plain_of_number? monthRead, first, plain_of_number? dayRead, second,
    plain_of_number? yearRead, plain_nil, and_self]

theorem dayFirst_excused : TakesExcused .dayFirst dayFirstForm := by
  refine takes_upTo.bind fun | _, day, ⟨rfl, _⟩ => ?_
  refine Takes.bind (takesPlain_oneOf (by decide)) fun _ _ first => ?_
  refine takes_upTo.bind fun | _, month, ⟨rfl, _⟩ => ?_
  refine Takes.bind (takesPlain_oneOf (by decide)) fun _ _ second => ?_
  refine takes_yearEnd.bind fun | _, year, ⟨rfl, _⟩ => ?_
  refine takes_pure fun read => .plain ?_
  obtain ⟨year, month, day⟩ := plain_of_fullDate read
  simp only [plain_append, year, first, month, second, day, plain_nil, and_self]

theorem takes_monthWord : Takes monthWord fun piece _ => IsMonthName piece := by
  refine takes_some1.bind fun | _, word, ⟨rfl, _, lower⟩ => ?_
  refine takes_value.bind fun | _, month, ⟨rfl, named⟩ => ?_
  refine takes_char.opt.bind fun _ _ point => takes_pure ?_
  refine ⟨word, month, named, lower, ?_⟩
  obtain ⟨-, rfl⟩ | ⟨_, -, rfl⟩ := point
  · exact .inl (List.append_nil word)
  · exact .inr rfl

theorem monthYear_excused : TakesExcused .monthYear monthYearForm := by
  refine takes_monthWord.bind fun _ _ named => ?_
  refine Takes.bind takesPlain_blanks1 fun _ _ gap => ?_
  refine takes_yearEnd.bind fun | _, year, ⟨rfl, _⟩ => ?_
  refine takes_pure fun read => .plain ?_
  rw [Option.isSome_map] at read
  simp only [plain_append, named.plain, gap, plain_of_number? read, plain_nil, and_self]

theorem hour_excused : TakesExcused .hour hourForm := by
  refine takes_upTo.bind fun | _, hour, ⟨rfl, _⟩ => ?_
  refine Takes.bind takesPlain_blanks fun _ _ gap => ?_
  refine Takes.bind halfMark_plain fun _ _ half => ?_
  refine takes_pure fun read => .plain ?_
  rw [Option.isSome_map] at read
  simp only [plain_append, plain_of_number? read, gap, half, plain_nil, and_self]

theorem shift_excused : TakesExcused .shift shiftForm := by
  refine Takes.bind (takesPlain_oneOf (by decide)).opt fun _ _ sign => ?_
  refine Takes.bind takesPlain_blanks fun _ _ first => ?_
  refine takes_some1.bind fun | _, amount, ⟨rfl, _⟩ => ?_
  refine Takes.bind takesPlain_blanks fun _ _ second => ?_
  refine Takes.bind takesPlain_word fun _ _ word => ?_
  refine Takes.bind takesPlain_value fun _ _ named => ?_
  refine takes_pure fun read => .plain ?_
  rw [Option.isSome_map] at read
  simp only [plain_append, sign, first, plain_of_number64? read, second, word, named, plain_nil,
    and_self]

theorem ascii_of_run {least most : Nat} (run : IsRun isDecimalDigit least most digits)
    (read : (number? digits).isSome = true) : IsRun isAsciiDigit least most digits :=
  ⟨run.long, run.short, ascii_of_number? read⟩

theorem takes_ordinalEnding : Takes ordinalEnding fun piece _ => IsOrdinalEnding piece := by
  refine takes_exactly.bind fun | _, ending, ⟨rfl, _⟩ => ?_
  refine takes_require.mono fun | _, _, ⟨rfl, listed⟩ => ?_
  rw [List.append_nil]
  exact .written (List.contains_iff_mem.mp listed)

theorem dayMonth_excused : TakesExcused .dayMonth dayMonthForm := by
  have takesYear : Takes (do let _ ← some1 isWideGap; yearEnd) fun piece _ => IsAnyYear piece := by
    refine takes_some1.bind fun | _, gap, ⟨rfl, filled, apart⟩ => ?_
    exact takes_yearEnd.mono fun | _, _, ⟨rfl, digits⟩ => .written filled apart digits
  refine takes_upTo.bind fun | _, day, ⟨rfl, run⟩ => ?_
  refine (takes_ordinalEnding.optional .absent).bind fun ending _ ordinal => ?_
  refine takes_run.bind fun | _, gap, ⟨rfl, apart⟩ => ?_
  refine takes_monthWord.bind fun month _ named => ?_
  refine (takesYear.optional .absent).bind fun year _ optional => ?_
  refine takes_pure fun read => ?_
  rw [Option.isSome_map] at read
  have date := FormName.Excuses.dayMonth (ascii_of_run run read) ordinal apart named optional
  rwa [List.append_nil]

theorem monthDay_excused : TakesExcused .monthDay monthDayForm := by
  have takesComma : Takes (opt (char ',')) fun piece _ => ∀ c ∈ piece, isWideGap c = true := by
    refine Takes.optional (fun _ member => (List.not_mem_nil member).elim) ?_
    exact takes_char.mono fun | _, _, rfl => List.forall_mem_singleton.mpr rfl
  have takesYear : Takes (do let _ ← opt (char ','); let _ ← blanks1; yearEnd)
      fun piece _ => IsAnyYear piece := by
    refine takesComma.bind fun comma _ wide => ?_
    refine takes_some1.bind fun | _, gap, ⟨rfl, filled, blank⟩ => ?_
    refine takes_yearEnd.mono fun | _, year, ⟨rfl, digits⟩ => ?_
    have apart : ∀ c ∈ gap, isWideGap c = true := fun c member => by
      rw [isWideGap, blank c member, Bool.true_or, Bool.true_or]
    rw [← List.append_assoc]
    exact .written (List.append_ne_nil_of_right_ne_nil comma filled)
      (List.forall_mem_append.mpr ⟨wide, apart⟩) digits
  refine takes_monthWord.bind fun month _ named => ?_
  refine takes_some1.bind fun | _, gap, ⟨rfl, filled, apart⟩ => ?_
  refine takes_upTo.bind fun | _, day, ⟨rfl, run⟩ => ?_
  refine (takes_ordinalEnding.optional .absent).bind fun ending _ ordinal => ?_
  refine takes_wordEnd.bind fun | _, _, rfl => ?_
  refine (takesYear.optional .absent).bind fun year _ optional => ?_
  refine takes_pure fun read => ?_
  rw [Option.isSome_map] at read
  have date := FormName.Excuses.monthDay named apart (ascii_of_run run read) ordinal optional
  rwa [List.append_nil]

theorem takes_secondPart : Takes secondPart fun piece _ => IsAnySeconds piece := by
  have takesFraction : Takes (do let _ ← oneOf ['.', ',']; Token.digits)
      fun piece _ => IsAnyFraction piece := by
    refine takes_one.bind fun | _, point, ⟨rfl, listed⟩ => ?_
    refine takes_some1.mono fun | _, _, ⟨rfl, filled, decimal⟩ => ?_
    exact .written (by simpa using listed) filled decimal
  refine takes_char.bind fun | _, _, rfl => ?_
  refine takes_exactly.bind fun | _, second, ⟨rfl, run⟩ => ?_
  refine (takesFraction.optional .absent).bind fun fraction _ dropped => takes_pure ?_
  simp only [List.cons_append, List.nil_append, List.append_nil]
  exact .written run dropped

theorem time_excused : TakesExcused .time timeForm := by
  refine takes_upTo.bind fun | _, hour, ⟨rfl, hours⟩ => ?_
  refine takes_char.bind fun | _, _, rfl => ?_
  refine takes_exactly.bind fun | _, minute, ⟨rfl, minutes⟩ => ?_
  refine (takes_secondPart.optional .absent).bind fun seconds _ optional => ?_
  refine Takes.bind (takesPlain_blanks.bind fun _ => halfMark_plain).opt fun half _ plain => ?_
  refine takes_pure fun read => ?_
  obtain ⟨hourRead, _, read⟩ := isSome_bind read
  obtain ⟨minuteRead, -⟩ := isSome_bind read
  have time := FormName.Excuses.time (ascii_of_run hours hourRead)
    (ascii_of_run minutes minuteRead) optional plain
  rwa [List.append_nil]

theorem offset_excused : TakesExcused .offset offsetForm := by
  have takesMinutes : Takes (do let _ ← opt (char ':'); digitsOf 2)
      fun piece _ => IsAnyMinutes piece := by
    refine takes_char.opt.bind fun colon _ joint => ?_
    refine takes_exactly.mono fun | _, minute, ⟨rfl, digits⟩ => .written ?_ digits
    obtain ⟨-, rfl⟩ | ⟨_, -, rfl⟩ := joint
    · exact .inl rfl
    · exact .inr rfl
  refine takes_one.bind fun | _, sign, ⟨rfl, listed⟩ => ?_
  refine takes_upTo.bind fun | _, hour, ⟨rfl, hours⟩ => ?_
  refine (takesMinutes.optional .absent).bind fun minutes _ optional => ?_
  refine takes_pure fun read => ?_
  obtain ⟨hourRead, -⟩ := isSome_bind read
  have signed : sign = '+' ∨ sign = '-' := by simpa using listed
  have offset := FormName.Excuses.offset signed (ascii_of_run hours hourRead) optional
  rwa [List.append_nil]

theorem form_excused (name : FormName) : TakesExcused name name.form := by
  cases name with
  | timestamp => exact timestamp_excused
  | iso => exact iso_excused
  | slash => exact slash_excused
  | american => exact american_excused
  | dayFirst => exact dayFirst_excused
  | monthYear => exact monthYear_excused
  | dayMonth => exact dayMonth_excused
  | monthDay => exact monthDay_excused
  | time => exact time_excused
  | hour => exact hour_excused
  | shift => exact shift_excused
  | ago => exact ago_plain.excused
  | keyword => exact keyword_plain.excused
  | monthEdge => exact monthEdge_plain.excused
  | directed => exact directed_plain.excused
  | zone => exact zone_plain.excused
  | offset => exact offset_excused
  | weekday => exact weekday_plain.excused

theorem readAll_legible {steps : Nat} {text : List Char} {tokens : List Token}
    (read : readAll steps text = some tokens) : Legible text := by
  induction steps generalizing text tokens with
  | zero =>
    rw [readAll.eq_def] at read
    cases start : stripStart isSeparator text with
    | nil => exact .nil start
    | cons c more =>
      simp only [start] at read
      cases read
  | succ steps ih =>
    rw [readAll.eq_def] at read
    cases start : stripStart isSeparator text with
    | nil => exact .nil start
    | cons c more =>
      simp only [start] at read
      split at read
      next token rest scanned =>
        obtain ⟨_, tail, -⟩ := Option.map_eq_some_iff.mp read
        obtain ⟨name, first, takes⟩ := FormName.of?_of_scan scanned
        obtain ⟨piece, whole, excused⟩ := form_excused name _ _ _ takes
        rw [whole] at start first takes
        exact .cons start first (congrArg (Option.map Prod.snd) takes) (excused rfl) (ih tail)
      next => cases read

end Token

/-- A phrase that is no complete civil time means nothing, unless its digits of other scripts all
stand in numbers that their tokens do without. -/
theorem illegible_phrases_mean_nothing {text : String}
    (notRfc3339 : Rfc3339.parse? (strip isBlank text.toList) = none)
    (notRfc2822 : Rfc2822.parse? (strip isBlank text.toList) = none)
    (illegible : ¬ Legible ((strip isBlank text.toList).map Char.toLower)) (base offset : Int) :
    parse text base offset = .error .notUnderstood := by
  have unread : Token.tokens? ((strip isBlank text.toList).map Char.toLower) = none :=
    Option.eq_none_iff_forall_ne_some.mpr fun tokens read => illegible (Token.readAll_legible read)
  simp only [parse]
  generalize strip isBlank text.toList = trimmed at notRfc3339 notRfc2822 unread
  cases trimmed with
  | nil => rfl
  | cons c rest =>
    simp only [notRfc3339, notRfc2822, parseTokens, unread]
    rfl

theorem illegible_phrases_mean_nothing_amount :
    let text := "+5\u0663\u0665 days"
    Rfc3339.parse? (strip isBlank text.toList) = none ∧
    Rfc2822.parse? (strip isBlank text.toList) = none ∧
    ¬ Legible ((strip isBlank text.toList).map Char.toLower) ∧
    parse text 1418031515 3600 = .error .notUnderstood := by
  intro text
  have notRfc3339 : Rfc3339.parse? (strip isBlank text.toList) = none := by decide
  have notRfc2822 : Rfc2822.parse? (strip isBlank text.toList) = none := by decide
  have illegible : ¬ Legible ((strip isBlank text.toList).map Char.toLower) :=
    not_legible text.toList [] .shift (by decide) (by decide) (by decide) rfl (by decide)
  exact ⟨notRfc3339, notRfc2822, illegible,
    illegible_phrases_mean_nothing notRfc3339 notRfc2822 illegible 1418031515 3600⟩

/-- A fraction of a second is dropped before its digits are looked at. -/
theorem fraction_in_other_digits_is_dropped :
    let text := "10:38:35.\u0665"
    (∃ c ∈ text.toList, isDecimalDigit c = true ∧ isAsciiDigit c = false) ∧
    Rfc3339.parse? (strip isBlank text.toList) = none ∧
    Rfc2822.parse? (strip isBlank text.toList) = none ∧
    parse text 0 0 = .ok (10 * 3600 + 38 * 60 + 35) := by
  intro text
  exact ⟨⟨'\u0665', by decide, by decide, by decide⟩, by decide, by decide, by decide⟩

end ConfigExpr.DatePhrase
