import ConfigExpr.Proofs.DatePhrase.Phrases
import ConfigExpr.Proofs.DatePhrase.Taking

/-!
Digits of other scripts in date phrases. They shape a token as ASCII digits do but have no value, so
a phrase can be read only where no value is needed: in a fraction of a second, which is dropped, and
in a number that may be left out.
-/
namespace ConfigExpr.DatePhrase
open Text Scan

def isForeignDigit (c : Char) : Bool :=
  isDecimalDigit c && !isAsciiDigit c

/-- A text without digits of other scripts. -/
def Plain (text : List Char) : Prop :=
  ∀ c ∈ text, isForeignDigit c = false

section Characters
variable {c : Char}

theorem isForeignDigit_of_isAsciiDigit (digit : isAsciiDigit c = true) : isForeignDigit c = false := by
  rw [isForeignDigit, digit, Bool.not_true, Bool.and_false]

theorem isForeignDigit_of_lt (low : c.toNat < 128) : isForeignDigit c = false := by
  rw [Bool.eq_false_iff]
  intro foreign
  obtain ⟨decimal, notAscii⟩ := Bool.and_eq_true_iff.mp foreign
  obtain ⟨first, listed, within⟩ := List.any_eq_true.mp decimal
  have zeros : ∀ first ∈ decimalZeros, first = 48 ∨ 128 ≤ first := by decide
  have zero := zeros first listed
  rw [Bool.and_eq_true, decide_eq_true_eq, decide_eq_true_eq] at within
  have ascii : isAsciiDigit c = true := by
    rw [isAsciiDigit, Bool.and_eq_true, decide_eq_true_eq, decide_eq_true_eq]
    have low : 48 ≤ c.toNat := by omega
    have high : c.toNat ≤ 57 := by omega
    exact ⟨low, high⟩
  rw [ascii] at notAscii
  cases notAscii

theorem isForeignDigit_of_isLower (lower : c.isLower = true) : isForeignDigit c = false := by
  obtain ⟨-, high⟩ := Scan.toNat_bounds_of_isLower lower
  exact isForeignDigit_of_lt (by omega)

def blankNumbers : List Nat :=
  [9, 10, 11, 12, 13, 0x20, 0x85, 0xA0, 0x1680, 0x2000, 0x2001, 0x2002, 0x2003, 0x2004, 0x2005,
    0x2006, 0x2007, 0x2008, 0x2009, 0x200A, 0x2028, 0x2029, 0x202F, 0x205F, 0x3000]

theorem isForeignDigit_of_isBlank (blank : isBlank c = true) : isForeignDigit c = false := by
  have listed : c.toNat ∈ blankNumbers := by
    simp only [isBlank, Bool.or_eq_true, Bool.and_eq_true, decide_eq_true_eq, beq_iff_eq] at blank
    simp only [blankNumbers, List.mem_cons, List.not_mem_nil, or_false]
    omega
  have each : ∀ n ∈ blankNumbers,
      (decimalZeros.any fun first => first ≤ n && n < first + 10) = false := by decide
  have noDigit : isDecimalDigit c = false := each _ listed
  rw [isForeignDigit, noDigit, Bool.false_and]

end Characters

section Texts
variable {text more : List Char} {c : Char} {p : Char → Bool}

theorem plain_nil : Plain [] :=
  fun _ member => (List.not_mem_nil member).elim

theorem plain_cons : Plain (c :: text) ↔ isForeignDigit c = false ∧ Plain text :=
  List.forall_mem_cons

theorem plain_append : Plain (text ++ more) ↔ Plain text ∧ Plain more :=
  List.forall_mem_append

theorem plain_of_all (others : ∀ c, p c = true → isForeignDigit c = false)
    (all : ∀ c ∈ text, p c = true) : Plain text :=
  fun c member => others c (all c member)

theorem plain_of_ascii (ascii : ∀ c ∈ text, isAsciiDigit c = true) : Plain text :=
  plain_of_all (fun _ => isForeignDigit_of_isAsciiDigit) ascii

end Texts

def TakesPlain {α : Type} (x : Scan α) : Prop :=
  Takes x fun piece _ => Plain piece

section TakesPlain
variable {α β : Type} {x : Scan α} {f : α → Scan β} {p : Char → Bool} {c : Char} {cs : List Char}

theorem takesPlain_pure {a : α} : TakesPlain (pure a : Scan α) :=
  takes_pure plain_nil

theorem TakesPlain.bind (first : TakesPlain x) (next : ∀ a, TakesPlain (f a)) :
    TakesPlain (x >>= f) :=
  Takes.bind first fun _ a plain => (next a).mono fun _ _ more => plain_append.mpr ⟨plain, more⟩

theorem TakesPlain.opt (plain : TakesPlain x) : TakesPlain (opt x) :=
  Takes.optional plain_nil plain

theorem takesPlain_char (other : isForeignDigit c = false) : TakesPlain (char c) := by
  refine takes_char.mono fun piece _ single => ?_
  rw [single]
  exact plain_cons.mpr ⟨other, plain_nil⟩

theorem takesPlain_oneOf (others : cs.any isForeignDigit = false) :
    TakesPlain (Token.oneOf cs) := by
  refine takes_one.mono fun piece c ⟨single, listed⟩ => ?_
  have other := List.any_eq_false.mp others c (List.contains_iff_mem.mp listed)
  rw [single]
  exact plain_cons.mpr ⟨Bool.eq_false_iff.mpr other, plain_nil⟩

theorem takesPlain_run (others : ∀ c, p c = true → isForeignDigit c = false) :
    TakesPlain (run p) :=
  takes_run.mono fun _ _ taken => plain_of_all others taken.2

theorem takesPlain_some1 (others : ∀ c, p c = true → isForeignDigit c = false) :
    TakesPlain (some1 p) :=
  takes_some1.mono fun _ _ taken => plain_of_all others taken.2.2

theorem takesPlain_value {value? : Option α} : TakesPlain (value value?) := by
  refine takes_value.mono fun piece _ taken => ?_
  rw [taken.1]
  exact plain_nil

theorem takesPlain_require {condition : Bool} : TakesPlain (require condition) := by
  refine takes_require.mono fun piece _ taken => ?_
  rw [taken.1]
  exact plain_nil

theorem takesPlain_wordEnd : TakesPlain wordEnd := by
  refine takes_wordEnd.mono fun piece _ nothing => ?_
  rw [nothing]
  exact plain_nil

theorem takesPlain_blanks : TakesPlain blanks :=
  takesPlain_run fun _ => isForeignDigit_of_isBlank

theorem takesPlain_blanks1 : TakesPlain blanks1 :=
  takesPlain_some1 fun _ => isForeignDigit_of_isBlank

theorem takesPlain_letters : TakesPlain letters :=
  takesPlain_some1 fun _ => isForeignDigit_of_isLower

theorem takesPlain_word : TakesPlain word :=
  takesPlain_letters.bind fun _ => takesPlain_wordEnd.bind fun _ => takesPlain_pure

end TakesPlain

inductive IsAnyFraction : List Char → Prop
  | absent : IsAnyFraction []
  | written {point : Char} {digits : List Char} (points : point = '.' ∨ point = ',')
      (filled : digits ≠ []) (decimal : ∀ c ∈ digits, isDecimalDigit c = true) :
      IsAnyFraction (point :: digits)

inductive IsAnySeconds : List Char → Prop
  | absent : IsAnySeconds []
  | written {second fraction : List Char} (digits : IsRun isDecimalDigit 2 2 second)
      (dropped : IsAnyFraction fraction) : IsAnySeconds (':' :: (second ++ fraction))

inductive IsAnyYear : List Char → Prop
  | absent : IsAnyYear []
  | written {gap year : List Char} (filled : gap ≠ [])
      (apart : ∀ c ∈ gap, Token.isWideGap c = true) (digits : IsRun isDecimalDigit 4 4 year) :
      IsAnyYear (gap ++ year)

inductive IsAnyMinutes : List Char → Prop
  | absent : IsAnyMinutes []
  | written {colon minute : List Char} (joint : colon = [] ∨ colon = [':'])
      (digits : IsRun isDecimalDigit 2 2 minute) : IsAnyMinutes (colon ++ minute)

inductive IsOrdinalEnding : List Char → Prop
  | absent : IsOrdinalEnding []
  | written {ending : List Char} (listed : String.ofList ending ∈ ["st", "nd", "rd", "th"]) :
      IsOrdinalEnding ending

/-- A word for a month, perhaps with a point. -/
def IsMonthName (text : List Char) : Prop :=
  ∃ word month, monthOfWord? word = some month ∧ (∀ c ∈ word, c.isLower = true) ∧
    (text = word ∨ text = word ++ ['.'])

theorem IsMonthName.plain {text : List Char} (is : IsMonthName text) : Plain text := by
  obtain ⟨word, _, -, lower, rfl | rfl⟩ := is
  · exact plain_of_all (fun _ => isForeignDigit_of_isLower) lower
  · exact plain_append.mpr ⟨plain_of_all (fun _ => isForeignDigit_of_isLower) lower,
      plain_cons.mpr ⟨by decide, plain_nil⟩⟩

inductive FormName where
  | timestamp
  | iso
  | slash
  | american
  | dayFirst
  | monthYear
  | dayMonth
  | monthDay
  | time
  | hour
  | shift
  | ago
  | keyword
  | monthEdge
  | directed
  | zone
  | offset
  | weekday
deriving DecidableEq, Repr

namespace FormName

def form : FormName → Token.Form
  | timestamp => Token.timestampForm
  | iso => Token.isoForm
  | slash => Token.slashForm
  | american => Token.americanForm
  | dayFirst => Token.dayFirstForm
  | monthYear => Token.monthYearForm
  | dayMonth => Token.dayMonthForm
  | monthDay => Token.monthDayForm
  | time => Token.timeForm
  | hour => Token.hourForm
  | shift => Token.shiftForm
  | ago => Token.agoForm
  | keyword => Token.keywordForm
  | monthEdge => Token.monthEdgeForm
  | directed => Token.directedForm
  | zone => Token.zoneForm
  | offset => Token.offsetForm
  | weekday => Token.weekdayForm

def all : List FormName :=
  [timestamp, iso, slash, american, dayFirst, monthYear, dayMonth, monthDay, time, hour, shift,
    ago, keyword, monthEdge, directed, zone, offset, weekday]

theorem map_form : all.map form = Token.forms := rfl

def of? (text : List Char) : Option FormName :=
  all.find? fun name => (name.form text).isSome

theorem of?_of_scan {text rest : List Char} {token : Option Token}
    (scanned : Token.scan text = some (token, rest)) :
    ∃ name, of? text = some name ∧ name.form text = some (token, rest) := by
  rw [Token.scan, ← map_form, firstOf, List.findSome?_map,
    List.findSome?_eq_some_iff] at scanned
  obtain ⟨before, name, behind, listed, fits, unfit⟩ := scanned
  refine ⟨name, List.find?_eq_some_iff_append.mpr ⟨?_, before, behind, listed, ?_⟩, fits⟩
  · exact Option.isSome_iff_exists.mpr ⟨_, fits⟩
  · intro earlier member
    have unfit : earlier.form text = none := unfit earlier member
    rw [unfit]
    rfl

/-- What a form has taken is without digits of other scripts, apart from the numbers that its token
may do without. -/
inductive Excuses : FormName → List Char → Prop
  | plain {name : FormName} {piece : List Char} (plain : Plain piece) : Excuses name piece
  | time {hour minute seconds half : List Char} (hours : IsRun isAsciiDigit 1 2 hour)
      (minutes : IsRun isAsciiDigit 2 2 minute) (optional : IsAnySeconds seconds)
      (marked : Plain half) : Excuses .time (hour ++ ':' :: (minute ++ (seconds ++ half)))
  | dayMonth {day ending gap month year : List Char} (digits : IsRun isAsciiDigit 1 2 day)
      (ordinal : IsOrdinalEnding ending) (apart : ∀ c ∈ gap, Token.isGap c = true)
      (named : IsMonthName month) (optional : IsAnyYear year) :
      Excuses .dayMonth (day ++ (ending ++ (gap ++ (month ++ year))))
  | monthDay {month gap day ending year : List Char} (named : IsMonthName month)
      (apart : ∀ c ∈ gap, Token.isGap c = true) (digits : IsRun isAsciiDigit 1 2 day)
      (ordinal : IsOrdinalEnding ending) (optional : IsAnyYear year) :
      Excuses .monthDay (month ++ (gap ++ (day ++ (ending ++ year))))
  | offset {sign : Char} {hour minutes : List Char} (signed : sign = '+' ∨ sign = '-')
      (hours : IsRun isAsciiDigit 1 2 hour) (optional : IsAnyMinutes minutes) :
      Excuses .offset (sign :: (hour ++ minutes))

/-- The forms whose tokens do without some of their numbers. -/
def doesWithout : FormName → Bool
  | time | dayMonth | monthDay | offset => true
  | _ => false

theorem Excuses.plain_of_required {name : FormName} {piece : List Char}
    (excused : name.Excuses piece) (required : name.doesWithout = false) : Plain piece := by
  cases excused with
  | plain plain => exact plain
  | time | dayMonth | monthDay | offset => cases required

end FormName

/-- A text that forms take piece by piece, each the first that fits what is left, such that digits
of other scripts stand only in numbers that the tokens do without. -/
inductive Legible : List Char → Prop
  | nil {text : List Char} (done : stripStart Token.isSeparator text = []) : Legible text
  | cons {text piece rest : List Char} {name : FormName}
      (left : stripStart Token.isSeparator text = piece ++ rest)
      (first : FormName.of? (piece ++ rest) = some name)
      (leaves : (name.form (piece ++ rest)).map Prod.snd = some rest)
      (excused : name.Excuses piece) (tail : Legible rest) : Legible text

theorem not_legible {text : List Char} (piece rest : List Char) (name : FormName)
    (left : stripStart Token.isSeparator text = piece ++ rest)
    (first : FormName.of? (piece ++ rest) = some name)
    (leaves : (name.form (piece ++ rest)).map Prod.snd = some rest)
    (required : name.doesWithout = false) (foreign : piece.any isForeignDigit = true) :
    ¬ Legible text := by
  intro legible
  obtain ⟨c, member, digit⟩ := List.any_eq_true.mp foreign
  cases legible with
  | nil done =>
    rw [left, List.append_eq_nil_iff] at done
    rw [done.1] at member
    exact List.not_mem_nil member
  | cons leftHere firstHere leavesHere excused tail =>
    rw [left] at leftHere
    rw [← leftHere] at firstHere leavesHere
    obtain rfl := Option.some.inj (first.symm.trans firstHere)
    obtain rfl := Option.some.inj (leaves.symm.trans leavesHere)
    obtain rfl := List.append_cancel_right leftHere
    rw [excused.plain_of_required required c member] at digit
    cases digit

-- Digits of two scripts in an amount, a day and a timestamp.
example : ¬ Legible "+5\u0663\u0665 days".toList ∧ ¬ Legible "2014-1-2\u0663\u0665".toList ∧
    ¬ Legible "@-1\u0663\u0665".toList :=
  ⟨not_legible "+5\u0663\u0665 days".toList [] .shift rfl (by decide) (by decide) rfl (by decide),
    not_legible "2014-1-2\u0663".toList ['\u0665'] .iso rfl (by decide) (by decide) rfl
      (by decide),
    not_legible "@-1\u0663\u0665".toList [] .timestamp rfl (by decide) (by decide) rfl
      (by decide)⟩

end ConfigExpr.DatePhrase
