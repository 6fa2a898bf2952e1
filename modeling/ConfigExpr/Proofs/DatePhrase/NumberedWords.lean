import ConfigExpr.Proofs.DatePhrase.CivilReadings
import ConfigExpr.Proofs.DatePhrase.DayPhrases

/-!
A number of one or two digits with a word behind it, as in `5 march`, `5 days` or `5 pm`. A word that
starts like a month stands for it, and `am` and `pm` may have another word right behind them. A number
before any other word is no phrase.
-/
namespace ConfigExpr.DatePhrase
open Calendar Text Scan

def lowerLetters : List Char :=
  ['a', 'b', 'c', 'd', 'e', 'f', 'g', 'h', 'i', 'j', 'k', 'l', 'm', 'n', 'o', 'p', 'q', 'r', 's', 't',
    'u', 'v', 'w', 'x', 'y', 'z']

theorem mem_lowerLetters {c : Char} (lower : c.isLower = true) : c ∈ lowerLetters := by
  obtain ⟨low, high⟩ := toNat_bounds_of_isLower lower
  obtain ⟨n, few, same⟩ : ∃ n < 26, c.toNat = 97 + n := ⟨c.toNat - 97, by omega, by omega⟩
  have each : ∀ n < 26, Char.ofNat (97 + n) ∈ lowerLetters := by decide
  rw [← Char.ofNat_toNat c, same]
  exact each n few

structure LowerWord where
  letters : List Char
  lower : ∀ c ∈ letters, c.isLower = true
  filled : letters ≠ []

theorem isLower_toLower {c : Char} (letter : c.isAlpha = true) : c.toLower.isLower = true := by
  rcases Bool.or_eq_true_iff.mp letter with upper | lower
  · have bounds : 65 ≤ c.toNat ∧ c.toNat ≤ 90 := of_decide_eq_true upper
    obtain ⟨n, few, same⟩ : ∃ n < 26, c.toNat = 65 + n := ⟨c.toNat - 65, by omega, by omega⟩
    have each : ∀ n < 26, (Char.ofNat (65 + n)).toLower.isLower = true := by decide
    rw [← Char.ofNat_toNat c, same]
    exact each n few
  · have bounds := toNat_bounds_of_isLower lower
    have notUpper : ¬ (65 ≤ c.toNat ∧ c.toNat ≤ 90) := by omega
    have same : c.toLower = c := dif_neg notUpper
    rwa [same]

namespace LowerWord

def ofLetters (word : List Char) (letters : ∀ c ∈ word, c.isAlpha = true) (filled : word ≠ []) :
    LowerWord where
  letters := word.map Char.toLower
  lower := List.forall_mem_map.mpr fun c member => isLower_toLower (letters c member)
  filled := fun nothing => filled (List.map_eq_nil_iff.mp nothing)

variable (w : LowerWord)

def name : String :=
  String.ofList w.letters

theorem stops {p : Char → Bool} (others : lowerLetters.any p = false) (rest : List Char) :
    Stops p (w.letters ++ rest) :=
  stops_append w.filled fun c member => Bool.eq_false_iff.mpr
    (List.any_eq_false.mp others c (mem_lowerLetters (w.lower c member)))

theorem letters_stops {p : Char → Bool} (others : lowerLetters.any p = false) : Stops p w.letters :=
  List.append_nil w.letters ▸ w.stops others []

theorem letters_takes : Scan.letters w.letters = some (w.letters, []) := by
  have takes : some1 Char.isLower (w.letters ++ []) = some (w.letters, []) :=
    some1_takes w.filled w.lower stops_nil
  rwa [List.append_nil] at takes

theorem word_takes : Scan.word w.letters = some (w.name, []) := by
  have takes := Scan.word_takes w.filled w.lower stops_nil
  rwa [List.append_nil] at takes

end LowerWord

/-- The token that a word is read as when nothing is behind it. -/
def wordToken? (word : String) : Option Token :=
  if word = "ago" then some .ago
  else
    match Token.keyword? word with
    | some token => some token
    | none =>
      if word = "z" || word = "utc" || word = "gmt" then some (.offset 0)
      else (weekdayOfWord? word).map fun day => .weekday day .this

/-- The words that are read alone and give no time of day. -/
def trailingWords : List String :=
  ["ago", "now", "today", "midnight", "tomorrow", "yesterday", "z", "utc", "gmt"] ++ weekdayWords

theorem mem_of_wordToken? {word : String} {token : Token} (read : wordToken? word = some token) :
    word = "noon" ∨ word ∈ trailingWords := by
  unfold wordToken? at read
  split at read
  next ago => exact .inr (ago ▸ by decide)
  next =>
    split at read
    next keyword known =>
      unfold Token.keyword? at known
      split at known
      case h_4 => exact .inl rfl
      case h_7 => cases known
      all_goals exact .inr (by decide)
    next =>
      split at read
      next zone =>
        simp only [Bool.or_eq_true, decide_eq_true_eq] at zone
        rcases zone with (rfl | rfl) | rfl <;> exact .inr (by decide)
      next =>
        obtain ⟨day, named, -⟩ := Option.map_eq_some_iff.mp read
        exact .inr (List.mem_append_right _ (mem_weekdayWords named))

namespace Token
variable (w : LowerWord)

theorem monthWord_word :
    monthWord w.letters = (monthOfWord? w.letters).map fun month => (month, []) := by
  rw [monthWord, bind_of_takes w.letters_takes]
  cases monthOfWord? w.letters with
  | none | some month => rfl

theorem bind_monthWord_fails {f : Nat → Form} (fails : ∀ month, f month [] = none) :
    (monthWord >>= f) w.letters = none := by
  have word := monthWord_word w
  cases named : monthOfWord? w.letters with
  | none =>
    rw [named, Option.map_none] at word
    exact bind_of_fails word
  | some month =>
    rw [named, Option.map_some] at word
    exact (bind_of_takes word).trans (fails month)

theorem earlyForms_fail : ∀ form ∈ forms.take 11, form w.letters = none := by
  have noDigit : Stops isDecimalDigit w.letters := w.letters_stops (by decide)
  have noYear : digitsOf 4 w.letters = none := exactly_stops (by decide) noDigit
  have noCount : digitsUpTo2 w.letters = none := upTo_fails noDigit
  have notShift : shiftForm w.letters = none := by
    have noSign : oneOf ['+', '-'] w.letters = none := one_fails (w.letters_stops (by decide))
    have noAmount : digits w.letters = none := some1_fails noDigit
    rw [shiftForm, bind_of_takes (opt_of_fails noSign),
      bind_of_takes (blanks_stops (w.letters_stops (by decide))), bind_of_fails noAmount]
  simp only [forms, List.take_succ_cons, List.take_zero, List.forall_mem_cons]
  exact ⟨timestampForm_fails (w.letters_stops rfl), isoForm_fails noYear, slashForm_fails noYear,
    bind_of_fails noCount, bind_of_fails noCount, bind_monthWord_fails w fun _ => rfl,
    bind_of_fails noCount, bind_monthWord_fails w fun _ => rfl, bind_of_fails noCount,
    bind_of_fails noCount, notShift, fun form member => (List.not_mem_nil member).elim⟩

theorem scan_word : scan w.letters = some (wordToken? w.name, []) := by
  have known := w.word_takes
  have notEdge : monthEdgeForm w.letters = none := by
    rw [monthEdgeForm, bind_of_takes w.letters_takes]
    rfl
  have notDirected : directedForm w.letters = none := by
    rw [directedForm, bind_of_takes w.letters_takes]
    cases direction? (String.ofList w.letters) with
    | none | some direction => rfl
  have notOffset : offsetForm w.letters = none :=
    bind_of_fails (one_fails (w.letters_stops (by decide)))
  have later : forms = forms.take 11 ++ [agoForm, keywordForm, monthEdgeForm, directedForm, zoneForm,
    offsetForm, weekdayForm] := rfl
  rw [scan, later, firstOf_append_of_fails (earlyForms_fail w), wordToken?]
  split
  next ago =>
    refine firstOf_of_takes ?_
    rw [agoForm, bind_of_takes known, ago]
    rfl
  next notAgo =>
    have agoFails : agoForm w.letters = none :=
      (bind_of_takes known).trans (bind_of_fails (if_neg (by rwa [beq_iff_eq])))
    rw [firstOf_of_fails agoFails]
    split
    next token named =>
      refine firstOf_of_takes ?_
      rw [keywordForm, bind_of_takes known, named]
      rfl
    next unnamed =>
      have keywordFails : keywordForm w.letters = none := by
        rw [keywordForm, bind_of_takes known, unnamed]
        rfl
      rw [firstOf_of_fails keywordFails, firstOf_of_fails notEdge, firstOf_of_fails notDirected]
      split
      next zone =>
        refine firstOf_of_takes ?_
        rw [zoneForm, bind_of_takes known]
        exact bind_of_takes (if_pos (by simpa using zone))
      next noZone =>
        have zoneFails : zoneForm w.letters = none :=
          (bind_of_takes known).trans (bind_of_fails (if_neg (by simpa using noZone)))
        rw [firstOf_of_fails zoneFails, firstOf_of_fails notOffset]
        refine firstOf_of_takes ?_
        rw [weekdayForm, bind_of_takes known, pure_apply]

end Token

/-- The half of the day that a word starts with, and the rest of the word. -/
def halfLead? : List Char → Option (Half × List Char)
  | c :: d :: tail =>
    if d = 'm' then
      if c = 'a' then some (.am, tail) else if c = 'p' then some (.pm, tail) else none
    else none
  | _ => none

/-- What a number is read as together with the word behind it, and what it leaves of the word. -/
def numberedToken? (count : Nat) (word : List Char) : Option (Token × List Char) :=
  match monthOfWord? word with
  | some month => some (.date none month count, [])
  | none =>
    match halfLead? word with
    | some (half, tail) => some (.time count 0 0 (some half), tail)
    | none => (TimeUnit.ofWord? (String.ofList word)).map fun unit => (.shift unit count, [])

namespace Token
variable {n : Nat} (count : DigitRun n) (w : LowerWord)

theorem point_absent {text : List Char} (lower : ∀ c ∈ text, c.isLower = true) :
    opt (char '.') text = some (none, text) := by
  refine opt_of_fails (char_fails fun c first => ?_)
  have letter := lower c (List.mem_of_mem_head? first)
  rw [beq_eq_false_iff_ne]
  rintro rfl
  cases letter

theorem halfMark_word : halfMark w.letters = halfLead? w.letters := by
  obtain ⟨letters, lower, filled⟩ := w
  dsimp only
  obtain _ | ⟨c, rest⟩ := letters
  · exact absurd rfl filled
  have lowerRest := (List.forall_mem_cons.mp lower).2
  by_cases half : ['a', 'p'].contains c = true
  · have marked : halfMark (c :: rest) = (char 'm' >>= fun _ => opt (char '.') >>= fun _ =>
        pure (if c == 'a' then Half.am else .pm)) rest := by
      rw [halfMark, oneOf, bind_of_takes (one_takes half), bind_of_takes (point_absent lowerRest)]
    obtain _ | ⟨d, tail⟩ := rest
    · exact marked
    rw [marked, halfLead?]
    by_cases m : d = 'm'
    · have lowerTail := (List.forall_mem_cons.mp lowerRest).2
      have letter : c = 'a' ∨ c = 'p' := by simpa using half
      rw [if_pos m, m, bind_of_takes char_takes, bind_of_takes (point_absent lowerTail), pure_apply]
      rcases letter with rfl | rfl <;> rfl
    · rw [if_neg m]
      exact bind_of_fails (if_neg m)
  · have unmarked : halfMark (c :: rest) = none := bind_of_fails (if_neg half)
    have letters : c ≠ 'a' ∧ c ≠ 'p' := by simpa using half
    obtain _ | ⟨d, tail⟩ := rest
    · exact unmarked
    rw [unmarked, halfLead?, if_neg letters.1, if_neg letters.2, ite_self]

theorem blanks_word : blanks (' ' :: w.letters) = some ([' '], w.letters) :=
  run_takes (List.forall_mem_singleton.mpr (by decide)) (w.letters_stops (by decide))

theorem digitsUpTo2_numbered (filled : 0 < n) (short : n ≤ 2) :
    digitsUpTo2 (count.digits ++ ' ' :: w.letters) = some (count.digits, ' ' :: w.letters) := by
  refine count.upTo_takes rfl filled ?_
  rcases Nat.lt_or_eq_of_le short with one | two
  · exact .inr ⟨one, stops_cons (by decide)⟩
  · exact .inl two

theorem dayMonthForm_numbered (filled : 0 < n) (short : n ≤ 2) :
    dayMonthForm (count.digits ++ ' ' :: w.letters) =
      (monthOfWord? w.letters).map fun month => (some (.date none month count.value), []) := by
  have noEnding : ordinalEnding (' ' :: w.letters) = none :=
    bind_of_fails (exactly_stops (by decide) (stops_cons rfl))
  have gap : run isGap (' ' :: w.letters) = some ([' '], w.letters) :=
    run_takes (List.forall_mem_singleton.mpr (by decide)) (w.letters_stops (by decide))
  have word := monthWord_word w
  rw [dayMonthForm, bind_of_takes (digitsUpTo2_numbered count w filled short),
    bind_of_takes (opt_of_fails noEnding), bind_of_takes gap]
  cases named : monthOfWord? w.letters with
  | none =>
    rw [named, Option.map_none] at word
    exact bind_of_fails word
  | some month =>
    rw [named, Option.map_some] at word
    rw [bind_of_takes word, count.number?_eq]
    rfl

theorem hourForm_numbered (filled : 0 < n) (short : n ≤ 2) :
    hourForm (count.digits ++ ' ' :: w.letters) = (halfLead? w.letters).map fun found =>
      (some (.time count.value 0 0 (some found.1)), found.2) := by
  have mark := halfMark_word w
  rw [hourForm, bind_of_takes (digitsUpTo2_numbered count w filled short), bind_of_takes (blanks_word w)]
  cases lead : halfLead? w.letters with
  | none => exact bind_of_fails (mark.trans lead)
  | some found =>
    rw [bind_of_takes (mark.trans lead), count.number?_eq]
    rfl

theorem shiftForm_numbered (filled : 0 < n) (short : n ≤ 2) :
    shiftForm (count.digits ++ ' ' :: w.letters) =
      (TimeUnit.ofWord? w.name).map fun unit => (some (.shift unit count.value), []) := by
  have noSign : oneOf ['+', '-'] (count.digits ++ ' ' :: w.letters) = none :=
    one_fails (count.stops filled rfl)
  have amount : digits (count.digits ++ ' ' :: w.letters) = some (count.digits, ' ' :: w.letters) :=
    some1_takes (count.digits_ne_nil filled) (count.forall_mem rfl) (stops_cons (by decide))
  have below : count.value < 10 ^ n := count.value_lt
  have small : (10 : Nat) ^ n ≤ 10 ^ 2 := Nat.pow_le_pow_right (by decide) short
  have value : number64? false count.digits = some (count.value : Int) :=
    number64?_run count false rfl (by omega) (by omega)
  rw [shiftForm, bind_of_takes (opt_of_fails noSign),
    bind_of_takes (blanks_stops (count.stops filled rfl)), bind_of_takes amount,
    bind_of_takes (blanks_word w), bind_of_takes w.word_takes]
  cases TimeUnit.ofWord? w.name with
  | none => rfl
  | some unit =>
    rw [value]
    rfl

theorem scan_numbered (filled : 0 < n) (short : n ≤ 2) : scan (count.digits ++ ' ' :: w.letters) =
    (numberedToken? count.value w.letters).map fun found => (some found.1, found.2) := by
  have takes := digitsUpTo2_numbered count w filled short
  have noYear : digitsOf 4 (count.digits ++ ' ' :: w.letters) = none :=
    count.exactly_fails rfl (by omega) (stops_cons (by decide))
  have noWord : monthWord (count.digits ++ ' ' :: w.letters) = none :=
    monthWord_fails (count.stops filled rfl)
  have dayMonth := dayMonthForm_numbered count w filled short
  have hour := hourForm_numbered count w filled short
  have shift := shiftForm_numbered count w filled short
  rw [scan, forms, firstOf_of_fails (timestampForm_fails (count.stops filled rfl)),
    firstOf_of_fails (isoForm_fails noYear), firstOf_of_fails (slashForm_fails noYear),
    firstOf_of_fails (americanForm_fails takes (stops_cons rfl)),
    firstOf_of_fails (dayFirstForm_fails takes (stops_cons rfl)),
    firstOf_of_fails (monthYearForm_fails noWord), numberedToken?]
  cases named : monthOfWord? w.letters with
  | some month =>
    rw [named] at dayMonth
    exact firstOf_of_takes dayMonth
  | none =>
    rw [named] at dayMonth
    rw [firstOf_of_fails dayMonth, firstOf_of_fails (monthDayForm_fails noWord),
      firstOf_of_fails (timeForm_fails takes (stops_cons rfl))]
    cases lead : halfLead? w.letters with
    | some found =>
      rw [lead] at hour
      exact firstOf_of_takes hour
    | none =>
      rw [lead] at hour
      rw [firstOf_of_fails hour]
      cases unit : TimeUnit.ofWord? (String.ofList w.letters) with
      | some unit' =>
        rw [LowerWord.name, unit] at shift
        exact firstOf_of_takes shift
      | none =>
        rw [LowerWord.name, unit] at shift
        rw [firstOf_of_fails shift]
        exact lateForms_fail (count.stops filled rfl) (count.stops filled rfl)

theorem readAll_of_stops {text : List Char} (stops : Stops isSeparator text) (filled : text ≠ [])
    (steps : Nat) : readAll (steps + 1) text =
      match scan text with
      | some (some token, rest) => (readAll steps rest).map (token :: ·)
      | _ => none := by
  cases text with
  | nil => exact absurd rfl filled
  | cons c rest =>
    rw [readAll.eq_def]
    dsimp only
    rewrite [stripStart_of_stops stops]
    rfl

end Token

def numberedTokens? (count : Nat) (word : List Char) : Option (List Token) :=
  (numberedToken? count word).bind fun (token, tail) =>
    if tail = [] then some [token]
    else (wordToken? (String.ofList tail)).map fun trailing => [token, trailing]

theorem halfLead?_eq_some {word tail : List Char} {half : Half}
    (lead : halfLead? word = some (half, tail)) :
    ∃ mark ∈ ["am", "pm"], word = mark.toList ++ tail := by
  unfold halfLead? at lead
  split at lead
  next c d rest =>
    split at lead
    next m =>
      split at lead
      next a =>
        obtain ⟨-, rfl⟩ := Prod.mk.inj (Option.some.inj lead)
        exact ⟨"am", by decide, by rw [a, m]; rfl⟩
      next =>
        split at lead
        next p =>
          obtain ⟨-, rfl⟩ := Prod.mk.inj (Option.some.inj lead)
          exact ⟨"pm", by decide, by rw [p, m]; rfl⟩
        next => cases lead
    next => cases lead
  next => cases lead

theorem numberedToken?_eq_some {count : Nat} {word tail : List Char} {token : Token}
    (read : numberedToken? count word = some (token, tail)) :
    (tail = [] ∧ ((∃ month, monthOfWord? word = some month ∧ token = .date none month count) ∨
      ∃ unit, TimeUnit.ofWord? (String.ofList word) = some unit ∧ token = .shift unit count)) ∨
    ∃ half, halfLead? word = some (half, tail) ∧ token = .time count 0 0 (some half) := by
  unfold numberedToken? at read
  split at read
  next month named =>
    obtain ⟨rfl, rfl⟩ := Prod.mk.inj (Option.some.inj read)
    exact .inl ⟨rfl, .inl ⟨month, named, rfl⟩⟩
  next =>
    split at read
    next half _ lead =>
      obtain ⟨rfl, rfl⟩ := Prod.mk.inj (Option.some.inj read)
      exact .inr ⟨half, lead, rfl⟩
    next =>
      obtain ⟨unit, named, same⟩ := Option.map_eq_some_iff.mp read
      obtain ⟨rfl, rfl⟩ := Prod.mk.inj same
      exact .inl ⟨rfl, .inr ⟨unit, named, rfl⟩⟩

theorem lower_of_numberedToken? {count : Nat} {word tail : List Char} {token : Token}
    (read : numberedToken? count word = some (token, tail)) (lower : ∀ c ∈ word, c.isLower = true) :
    ∀ c ∈ tail, c.isLower = true := by
  obtain ⟨rfl, -⟩ | ⟨half, lead, -⟩ := numberedToken?_eq_some read
  · exact fun c member => (List.not_mem_nil member).elim
  · obtain ⟨mark, -, rfl⟩ := halfLead?_eq_some lead
    exact fun c member => lower c (List.mem_append_right _ member)

section Numbered
variable {n : Nat} (count : DigitRun n) (filled : 0 < n) (short : n ≤ 2)
include filled short

theorem tokens?_numbered (w : LowerWord) : Token.tokens? (count.digits ++ ' ' :: w.letters) =
    numberedTokens? count.value w.letters := by
  have scanned := Token.scan_numbered count w filled short
  obtain ⟨steps, enough⟩ : ∃ steps, (count.digits ++ ' ' :: w.letters).length = steps + 1 + 1 := by
    refine ⟨n + w.letters.length - 1, ?_⟩
    rw [List.length_append, List.length_cons, count.length_eq]
    omega
  rw [Token.tokens?, enough, Token.readAll_of_stops (count.stops filled rfl) (by simp), scanned,
    numberedTokens?]
  cases read : numberedToken? count.value w.letters with
  | none => rfl
  | some found =>
    obtain ⟨token, tail⟩ := found
    simp only [Option.map_some, Option.bind_some]
    split
    next nothing =>
      rw [nothing, Token.reads_nil.readAll (Nat.zero_le _), Option.map_some]
    next more =>
      let trailing : LowerWord := ⟨tail, lower_of_numberedToken? read w.lower, more⟩
      have last : Token.scan tail = some (wordToken? (String.ofList tail), []) :=
        Token.scan_word trailing
      rw [Token.readAll_of_stops (trailing.letters_stops (by decide)) more, last]
      cases wordToken? (String.ofList tail) with
      | none => rfl
      | some token =>
        simp only [Token.reads_nil.readAll (Nat.zero_le _), Option.map_some]

theorem parse_numbered {word : List Char} (w : LowerWord) (spelled : word.map Char.toLower = w.letters)
    (base offset : Int) : parse (String.ofList (count.digits ++ ' ' :: word)) base offset =
      understood (numberedTokens? count.value w.letters) >>= fun tokens =>
        understood (Reading.ofTokens? tokens) >>= fun reading => reading.resolve base offset := by
  have letter : ∀ c ∈ word, c.toLower.isLower = true := fun c member =>
    w.lower _ (spelled ▸ List.mem_map_of_mem member)
  have noBlank : ∀ c ∈ word, isBlank c = false := fun c member =>
    isBlank_of_isLower_toLower (letter c member)
  have more : word ≠ [] := by
    rintro rfl
    exact w.filled spelled.symm
  have lowered : (count.digits ++ ' ' :: word).map Char.toLower =
      count.digits ++ ' ' :: w.letters := by
    rw [List.map_append, List.map_cons, count.map_toLower, spelled]
    rfl
  have ending : Stops isBlank (count.digits ++ ' ' :: word).reverse := by
    rw [List.reverse_append, List.reverse_cons, List.append_assoc]
    exact stops_append (List.reverse_ne_nil_iff.mpr more) fun c member =>
      noBlank c (List.mem_reverse.mp member)
  rw [parse_eq_parseTokens (count.stops filled (by decide)) ending
    (Rfc3339.scan_of_fixedNumber (count.fixedNumber_fails (by omega) (stops_cons rfl)))
    (Rfc2822.scan_of_lastWord (count.digits_ne_nil filled) count.ascii (by rwa [count.length_eq])
      noBlank) (by simp), parseTokens, lowered,
    tokens?_numbered count filled short w]

end Numbered

/-- A number may stand before a word that starts like a month, before a word for a unit, and up to
twelve before `am` and `pm`, which may have a word right behind them that is read alone. -/
def MayFollow (count : Nat) (word : List Char) : Prop :=
  (∃ name ∈ monthAbbreviations, name.toList <+: word) ∨ String.ofList word ∈ Token.unitWords ∨
    count ≤ 12 ∧ ∃ mark ∈ ["am", "pm"], ∃ tail ∈ "" :: trailingWords,
      word = mark.toList ++ tail.toList

theorem isSome_monthOfWord? {word : List Char} :
    (monthOfWord? word).isSome = true ↔ ∃ name ∈ monthAbbreviations, name.toList <+: word := by
  have three : ∀ name ∈ monthAbbreviations, name.toList.length = 3 := by decide
  rw [monthOfWord?, Option.isSome_map, List.findIdx?_isSome, List.any_eq_true]
  refine exists_congr fun name => and_congr_right fun member => ?_
  rw [beq_iff_eq, List.prefix_iff_eq_take, three name member]

theorem month_le_of_monthOfWord? {word : List Char} {month : Nat}
    (named : monthOfWord? word = some month) : 1 ≤ month ∧ month ≤ 12 := by
  obtain ⟨index, found, rfl⟩ := Option.map_eq_some_iff.mp named
  have below := (List.findIdx?_eq_some_iff_getElem.mp found).1
  have twelve : monthAbbreviations.length = 12 := rfl
  omega

theorem hours_of_ofTokens? {count : Nat} {half : Half} {tokens : List Token} {r : Reading}
    (read : Reading.ofTokens? (.time count 0 0 (some half) :: tokens) = some r) :
    count ≤ 12 ∧ tokens ≠ [.time 12 0 0 none] := by
  by_cases hours : (1 ≤ count && count ≤ 12) = true
  · refine ⟨by simpa using (Bool.and_eq_true_iff.mp hours).2, ?_⟩
    rintro rfl
    simp [Reading.ofTokens?, Reading.add, Reading.setTime, Reading.hourOfDay?, Reading.empty,
      hours] at read
  · have none : Reading.hourOfDay? count (some half) = none := if_neg hours
    simp [Reading.ofTokens?, Reading.add, Reading.setTime, none] at read

theorem mayFollow_of_read {count : Nat} {word : List Char} {tokens : List Token} {r : Reading}
    (written : numberedTokens? count word = some tokens) (read : Reading.ofTokens? tokens = some r) :
    MayFollow count word := by
  obtain ⟨⟨token, tail⟩, first, rest⟩ := Option.bind_eq_some_iff.mp written
  obtain ⟨-, ⟨month, named, -⟩ | ⟨unit, named, -⟩⟩ | ⟨half, lead, rfl⟩ :=
    numberedToken?_eq_some first
  · exact .inl (isSome_monthOfWord?.mp (Option.isSome_of_mem named))
  · exact .inr (.inl (Token.mem_unitWords named))
  · obtain ⟨mark, listed, rfl⟩ := halfLead?_eq_some lead
    refine .inr (.inr ?_)
    dsimp only at rest
    split at rest
    next nothing =>
      obtain rfl := Option.some.inj rest
      exact ⟨(hours_of_ofTokens? read).1, mark, listed, "", by decide, by rw [nothing]; rfl⟩
    next =>
      obtain ⟨trailing, known, rfl⟩ := Option.map_eq_some_iff.mp rest
      obtain ⟨hours, once⟩ := hours_of_ofTokens? read
      refine ⟨hours, mark, listed, String.ofList tail, ?_, by rw [String.toList_ofList]⟩
      obtain noon | member := mem_of_wordToken? known
      · rw [noon] at known
        exact absurd (congrArg (fun token => [token]) (Option.some.inj known).symm) once
      · exact List.mem_cons_of_mem _ member

/-- The instant that tokens denote in UTC, relative to the start of 1970. -/
def sinceEpoch (tokens : List Token) : Except NoInstant Int :=
  understood (Reading.ofTokens? tokens) >>= fun reading => reading.resolve 0 0

theorem isOk_sinceEpoch_date {month day : Nat} (months : 1 ≤ month ∧ month ≤ 12)
    (days : 1 ≤ day ∧ day ≤ 31) : (sinceEpoch [.date none month day]).isOk = true := by
  let r : Reading := { Reading.empty with date := some ⟨none, month, day⟩ }
  have read : Reading.ofTokens? [.date none month day] = some r := by
    simp [r, Reading.ofTokens?, Reading.add, Reading.setDate, Reading.empty, months, days]
  have early : 1970 ≤ 9999 := by decide
  obtain ⟨there, supported⟩ := dayInMonth?_eq early months days
  have onDay : r.day? (dayOf 0) = some (dayNumber (1970 : Nat) month 1 + (day - 1)) := by
    change (dayInMonth? (1970 : Nat) month day >>= fun day => r.shiftedDay? day >>= r.movedDay?) = _
    rw [there]
    rfl
  have shown : isSupportedInstant ((dayNumber (1970 : Nat) month 1 + (day - 1)) * 86400 +
      r.clock (secondOfDay 0)) = true := by
    change isSupported (dayOf (_ * 86400 + (0 : Nat))) = true
    rwa [dayOf_add_clock _ (Nat.zero_lt_succ 86399)]
  have base : isSupportedInstant 0 = true := by decide
  rw [sinceEpoch, read, understood, Outcome.ok_bind, r.resolve_of_unanchored rfl rfl,
    readAt_of_supported base base, Int.add_zero, Reading.local?_of_unshifted rfl onDay shown]
  rfl

theorem isOk_sinceEpoch_shift (unit : TimeUnit) {count : Nat} (to31 : count ≤ 31) :
    (sinceEpoch [.shift unit count]).isOk = true := by
  have each : ∀ count : Nat, count < 32 → (sinceEpoch [.shift unit count]).isOk = true := by
    cases unit <;> decide +kernel
  exact each count (Nat.lt_succ_of_le to31)

/-- The tokens of the words that are read alone and give no time of day. -/
def trailingTokens : List Token :=
  [.ago, .now, .dayStart 0, .dayStart 1, .dayStart (-1), .offset 0] ++
    (List.range 7).map fun day => .weekday day .this

theorem isOk_sinceEpoch_time {count : Nat} (from1 : 1 ≤ count) (to12 : count ≤ 12) (half : Half)
    {trailing : List Token} (listed : trailing ∈ [] :: trailingTokens.map ([·])) :
    (sinceEpoch (.time count 0 0 (some half) :: trailing)).isOk = true := by
  have each : ∀ trailing ∈ [] :: trailingTokens.map ([·]), ∀ count < 13, 1 ≤ count →
      (sinceEpoch (.time count 0 0 (some half) :: trailing)).isOk = true := by
    cases half <;> decide +kernel
  exact each trailing listed count (Nat.lt_succ_of_le to12) from1

theorem exists_wordToken? {word : String} (listed : word ∈ trailingWords) :
    word.toList ≠ [] ∧ ∃ token ∈ trailingTokens, wordToken? word = some token := by
  have each : ∀ word ∈ trailingWords, word.toList ≠ [] ∧
      ∃ token ∈ trailingTokens, wordToken? word = some token := by decide
  exact each word listed

theorem exists_instant_of_mayFollow {count : Nat} (from1 : 1 ≤ count) (to31 : count ≤ 31)
    {word : List Char} (follows : MayFollow count word) :
    (understood (numberedTokens? count word) >>= sinceEpoch).isOk = true := by
  obtain month | unit | ⟨to12, mark, marks, tail, tails, rfl⟩ := follows
  · obtain ⟨month, named⟩ := Option.isSome_iff_exists.mp (isSome_monthOfWord?.mpr month)
    rw [numberedTokens?, numberedToken?, named]
    exact isOk_sinceEpoch_date (month_le_of_monthOfWord? named) ⟨from1, to31⟩
  · have each : ∀ name ∈ Token.unitWords, monthOfWord? name.toList = none ∧
        halfLead? name.toList = none ∧ (TimeUnit.ofWord? name).isSome = true := by decide
    obtain ⟨noMonth, noHalf, known⟩ := each _ unit
    obtain ⟨unit, named⟩ := Option.isSome_iff_exists.mp known
    rw [String.toList_ofList] at noMonth noHalf
    rw [numberedTokens?, numberedToken?, noMonth, noHalf, named]
    exact isOk_sinceEpoch_shift unit to31
  · have apart : ∀ mark ∈ ["am", "pm"], ∀ tail ∈ "" :: trailingWords,
        monthOfWord? (mark.toList ++ tail.toList) = none := by decide
    obtain ⟨half, lead⟩ : ∃ half, halfLead? (mark.toList ++ tail.toList) = some (half, tail.toList) := by
      have either : mark = "am" ∨ mark = "pm" := by simpa using marks
      obtain rfl | rfl := either
      · exact ⟨.am, rfl⟩
      · exact ⟨.pm, rfl⟩
    rw [numberedTokens?, numberedToken?, apart mark marks tail tails, lead]
    obtain rfl | listed := List.mem_cons.mp tails
    · exact isOk_sinceEpoch_time from1 to12 half List.mem_cons_self
    · obtain ⟨more, token, found, known⟩ := exists_wordToken? listed
      have trailing := isOk_sinceEpoch_time from1 to12 half
        (List.mem_cons_of_mem _ (List.mem_map_of_mem found))
      simpa [more, known, understood, Outcome.ok_bind] using trailing

end ConfigExpr.DatePhrase
