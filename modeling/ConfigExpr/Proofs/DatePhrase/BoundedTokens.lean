import ConfigExpr.DatePhrase.Reading
import ConfigExpr.Proofs.DatePhrase.Consuming
import ConfigExpr.Proofs.DatePhrase.LegibleForms
import ConfigExpr.Proofs.Outcome

/-!
Tokens whose numbers are computed in integers of so many bits. A plain sum, product or negation
whose result does not fit stops with an overflow, which nothing takes back, and a checked one refuses
the phrase. The forms that compute anything are given here once more with such steps, and they read
what the forms without bounds read: none of their steps overflows, whatever digits they are given.
-/
namespace ConfigExpr.DatePhrase
open Text Scan

/-- Why nothing comes out. Only a refusal is an answer; all others stop the program. -/
inductive Halt where
  | refused
  /-- The calendar ends before the local time of the base. -/
  | noLocalTime
  /-- A plain operation left its integer type. -/
  | overflow
  /-- A text was cut outside its bounds or inside a character. -/
  | outside
  /-- The rounds were used up. -/
  | unfinished
deriving DecidableEq, Repr

def Halt.ofNoInstant : NoInstant → Halt
  | .notUnderstood => .refused
  | .noLocalTime => .noLocalTime

abbrev Bounded :=
  Except Halt

namespace Bounded
variable {α β : Type}

/-- What is not there is refused. -/
def ofOption : Option α → Bounded α
  | some a => .ok a
  | none => .error .refused

theorem ofOption_bind {x : Option α} {f : α → Option β} {next : α → Bounded β}
    (same : ∀ a, x = some a → next a = ofOption (f a)) :
    ofOption x >>= next = ofOption (x >>= f) := by
  cases x with
  | none => rfl
  | some a => exact same a rfl

theorem ofOption_map (x : Option α) (f : α → β) : ofOption (x.map f) = f <$> ofOption x := by
  cases x with
  | none | some _ => rfl

theorem ofOption_ite (condition : Prop) [Decidable condition] (x : Option α) :
    ofOption (if condition then x else none) =
      if condition then ofOption x else .error .refused := by
  split <;> rfl

def ofResult (x : Except NoInstant α) : Bounded α :=
  x.mapError Halt.ofNoInstant

theorem ofResult_bind {x : Except NoInstant α} {f : α → Except NoInstant β} {next : α → Bounded β}
    (same : ∀ a, x = .ok a → next a = ofResult (f a)) :
    ofResult x >>= next = ofResult (x >>= f) := by
  cases x with
  | error _ => rfl
  | ok a => exact same a rfl

theorem ofResult_understood (x : Option α) : ofResult (understood x) = ofOption x := by
  cases x with
  | none | some _ => rfl

theorem ofResult_eq_noLocalTime {x : Except NoInstant α} :
    ofResult x = .error .noLocalTime ↔ x = .error .noLocalTime := by
  cases x with
  | ok _ => simp [ofResult, Except.mapError]
  | error fault => cases fault <;> simp [ofResult, Except.mapError, Halt.ofNoInstant]

/-- The signed integers of so many bits. -/
def fits (bits : Nat) (n : Int) : Bool :=
  -2 ^ (bits - 1) ≤ n && n < 2 ^ (bits - 1)

/-- The result of a plain operation on signed integers. -/
def signed (bits : Nat) (n : Int) : Bounded Int :=
  if fits bits n then .ok n else .error .overflow

/-- The result of a plain operation on integers without sign. -/
def unsigned (bits n : Nat) : Bounded Nat :=
  if n < 2 ^ bits then .ok n else .error .overflow

/-- The result of a checked operation or of a conversion. -/
def checked (bits : Nat) (n : Int) : Bounded Int :=
  if fits bits n then .ok n else .error .refused

section Small
variable {bits : Nat} {n : Int} (small : n.natAbs < 2 ^ (bits - 1))
include small

theorem fits_of_natAbs_lt : fits bits n = true := by
  have cast : ((2 ^ (bits - 1) : Nat) : Int) = 2 ^ (bits - 1) := by push_cast; rfl
  rw [fits, Bool.and_eq_true, decide_eq_true_eq, decide_eq_true_eq, ← cast]
  omega

theorem signed_eq_ok : signed bits n = .ok n :=
  if_pos (fits_of_natAbs_lt small)

theorem checked_eq_ok : checked bits n = .ok n :=
  if_pos (fits_of_natAbs_lt small)

end Small

theorem unsigned_eq_ok {bits n : Nat} (small : n < 2 ^ bits) : unsigned bits n = .ok n :=
  if_pos small

theorem checked_eq_ofOption (n : Int) : checked 64 n = ofOption (within64? n) := by
  rw [within64?, ofOption_ite]
  rfl

end Bounded

namespace Token
variable {digits : List Char} {p : Char → Bool} {least most n : Nat}

theorem number?_lt (run : IsRun p least most digits) (read : number? digits = some n) :
    n < 10 ^ most := by
  have ascii := ascii_of_number? (Option.isSome_of_eq_some read)
  obtain rfl := Option.some.inj ((if_pos (List.all_eq_true.mpr ascii)).symm.trans read)
  exact Nat.lt_of_lt_of_le (Numeral.decimalValue_lt ascii)
    (Nat.pow_le_pow_right (by decide) run.short)

theorem number64?_bounds {amount : Int} (read : number64? false digits = some amount) :
    0 ≤ amount ∧ amount < 2 ^ 63 := by
  simp only [number64?, Option.bind_eq_bind, Option.bind_eq_some_iff, Option.ite_none_right_eq_some,
    Bool.false_eq_true, if_false, Option.some.injEq, Bool.and_eq_true, decide_eq_true_eq] at read
  obtain ⟨magnitude, -, within, rfl⟩ := read
  exact ⟨Int.natCast_nonneg magnitude, within.2⟩

theorem takes_americanYear : Takes (firstOf [yearEnd, do
    let year ← digitsOf 2
    wordEnd
    return year]) fun _ year => IsRun isDecimalDigit 2 4 year := by
  have long : Takes yearEnd fun _ year => IsRun isDecimalDigit 2 4 year :=
    takes_yearEnd.mono fun _ _ taken => taken.1 ▸ taken.2.mono (by decide) (Nat.le_refl 4)
  have short : Takes (do let year ← digitsOf 2; wordEnd; return year) fun _ year =>
      IsRun isDecimalDigit 2 4 year := by
    refine takes_exactly.bind fun piece year taken => ?_
    have run : IsRun isDecimalDigit 2 4 year :=
      taken.1 ▸ taken.2.mono (Nat.le_refl 2) (by decide)
    exact Takes.bind keeps_wordEnd fun _ _ _ => takes_pure run
  exact takes_firstOf (List.forall_mem_cons.mpr ⟨long, List.forall_mem_singleton.mpr short⟩)

theorem takes_minutes : Takes (opt do let _ ← opt (char ':'); digitsOf 2) fun _ minutes =>
    ∀ digits ∈ minutes, IsRun isDecimalDigit 2 2 digits := by
  have written : Takes (do let _ ← opt (char ':'); digitsOf 2) fun _ digits =>
      IsRun isDecimalDigit 2 2 digits :=
    consumes_char.keeps.opt.bind fun _ => takes_exactly.mono fun _ _ taken => taken.1 ▸ taken.2
  refine written.opt.mono fun _ minutes taken digits given => ?_
  obtain ⟨rfl, -⟩ | ⟨_, rfl, run⟩ := taken
  · cases given
  · cases given
    exact run

/-- The place of the month in the year, counted from zero. -/
def monthIndexWord : Scan Nat := do
  let text ← letters
  let index ← value (monthAbbreviations.findIdx? fun name => name.toList == text.take 3)
  let _ ← opt (char '.')
  return index

theorem takes_monthIndexWord : Takes monthIndexWord fun _ index => index < 12 :=
  takes_some1.bind fun _ _ _ => takes_value.bind fun _ index known =>
    Takes.bind consumes_char.keeps.opt fun _ _ _ => takes_pure (by
      obtain ⟨place, -, -⟩ := List.findIdx?_eq_some_iff_getElem.mp known.2
      exact place)

theorem monthWord_eq : monthWord = (· + 1) <$> monthIndexWord := by
  simp only [monthWord, monthIndexWord, map_bind, map_pure]
  refine bind_congr fun text => ?_
  funext rest
  cases named : monthAbbreviations.findIdx? fun name => name.toList == text.take 3 with
  | none => simp [monthOfWord?, named, value, bind, StateT.bind]
  | some index => simp [monthOfWord?, named, value, bind, StateT.bind]

end Token

namespace Bounded

/-- A year of two digits, to which a century is added. Years are signed, so a natural number has one
bit less. -/
def expandYear (count year : Nat) : Bounded Nat :=
  if count = 2 then (if year ≤ 69 then unsigned 31 (2000 + year) else unsigned 31 (1900 + year))
  else .ok year

def americanDate (year month day : List Char) : Bounded Token := do
  let fullYear ← expandYear year.length (← ofOption (Token.number? year))
  return .date (some fullYear) (← ofOption (Token.number? month)) (← ofOption (Token.number? day))

def monthYear (index : Nat) (year : List Char) : Bounded Token := do
  let month ← unsigned 32 (index + 1)
  return .date (some (← ofOption (Token.number? year))) month 1

def monthDay (index : Nat) (year : Option (List Char)) (day : List Char) : Bounded Token := do
  let month ← unsigned 32 (index + 1)
  return .date (year.bind Token.number?) month (← ofOption (Token.number? day))

def turned (bits : Nat) (back : Bool) (n : Int) : Bounded Int :=
  if back then signed bits (-n) else .ok n

def shift (sign : Option Char) (unit : TimeUnit) (amount : List Char) : Bounded Token := do
  let amount ← ofOption (Token.number64? false amount)
  return .shift unit (← turned 64 (sign == some '-') amount)

def offset (sign : Char) (hours : List Char) (minutes : Option (List Char)) : Bounded Token := do
  let hours ← signed 32 ((← ofOption (Token.number? hours)) * 3600)
  let minutes ← signed 32 ((minutes.bind Token.number?).getD 0 * 60)
  let seconds ← signed 32 (hours + minutes)
  return .offset (← turned 32 (sign == '-') seconds)

def americanForm : Scan (Bounded Token) := do
  let month ← Token.digitsUpTo2
  char '/'
  let day ← Token.digitsUpTo2
  char '/'
  let year ← firstOf [Token.yearEnd, do
    let year ← Token.digitsOf 2
    wordEnd
    return year]
  return americanDate year month day

def monthYearForm : Scan (Bounded Token) := do
  let index ← Token.monthIndexWord
  let _ ← blanks1
  let year ← Token.yearEnd
  return monthYear index year

def dayMonthForm : Scan (Bounded Token) := do
  let day ← Token.digitsUpTo2
  let _ ← opt Token.ordinalEnding
  let _ ← run Token.isGap
  let index ← Token.monthIndexWord
  let year ← opt do
    let _ ← some1 Token.isWideGap
    Token.yearEnd
  return monthDay index year day

def monthDayForm : Scan (Bounded Token) := do
  let index ← Token.monthIndexWord
  let _ ← some1 Token.isGap
  let day ← Token.digitsUpTo2
  let _ ← opt Token.ordinalEnding
  wordEnd
  let year ← opt do
    let _ ← opt (char ',')
    let _ ← blanks1
    Token.yearEnd
  return monthDay index year day

def shiftForm : Scan (Bounded Token) := do
  let sign ← opt (Token.oneOf ['+', '-'])
  let _ ← blanks
  let amount ← Token.digits
  let _ ← blanks
  let word ← word
  let unit ← value (TimeUnit.ofWord? word)
  return shift sign unit amount

def offsetForm : Scan (Bounded Token) := do
  let sign ← Token.oneOf ['+', '-']
  let hours ← Token.digitsUpTo2
  let minutes ← opt do
    let _ ← opt (char ':')
    Token.digitsOf 2
  return offset sign hours minutes

/-- The forms that compute nothing are those without bounds. -/
def forms : List (Scan (Bounded Token)) :=
  [ofOption <$> Token.timestampForm, ofOption <$> Token.isoForm, ofOption <$> Token.slashForm,
    americanForm, ofOption <$> Token.dayFirstForm, monthYearForm, dayMonthForm, monthDayForm,
    ofOption <$> Token.timeForm, ofOption <$> Token.hourForm, shiftForm, ofOption <$> Token.agoForm,
    ofOption <$> Token.keywordForm, ofOption <$> Token.monthEdgeForm,
    ofOption <$> Token.directedForm, ofOption <$> Token.zoneForm, offsetForm,
    ofOption <$> Token.weekdayForm]

def scan : Scan (Bounded Token) :=
  firstOf forms

theorem expandYear_eq {count year : Nat} (small : year < 10 ^ 4) :
    expandYear count year = .ok (Token.expandYear count year) := by
  simp only [expandYear, Token.expandYear]
  split
  next =>
    split
    all_goals exact unsigned_eq_ok (by omega)
  next => rfl

theorem turned_eq {bits : Nat} {back : Bool} {n : Int} (small : n.natAbs < 2 ^ (bits - 1)) :
    turned bits back n = .ok (if back then -n else n) := by
  rw [turned]
  split
  next => exact signed_eq_ok (by rwa [Int.natAbs_neg])
  next => rfl

section Values
variable {p : Char → Bool} {least index : Nat} {year day : List Char}

theorem americanDate_eq (run : IsRun p least 4 year) (month day : List Char) :
    americanDate year month day = ofOption (do
      let fullYear := Token.expandYear year.length (← Token.number? year)
      return .date (some fullYear) (← Token.number? month) (← Token.number? day)) := by
  refine ofOption_bind fun n read => ?_
  rw [expandYear_eq (Token.number?_lt run read), Outcome.ok_bind]
  exact ofOption_bind fun _ _ => ofOption_bind fun _ _ => rfl

theorem monthYear_eq (inYear : index < 12) (year : List Char) :
    monthYear index year =
      ofOption ((Token.number? year).map fun year => .date (some year) (index + 1) 1) := by
  rw [monthYear, unsigned_eq_ok (by omega), Outcome.ok_bind, ofOption_map]
  rfl

theorem monthDay_eq (inYear : index < 12) (year : Option (List Char)) (day : List Char) :
    monthDay index year day = ofOption
      ((Token.number? day).map fun day => .date (year.bind Token.number?) (index + 1) day) := by
  rw [monthDay, unsigned_eq_ok (by omega), Outcome.ok_bind, ofOption_map]
  rfl

theorem shift_eq (sign : Option Char) (unit : TimeUnit) (amount : List Char) :
    shift sign unit amount = ofOption ((Token.number64? false amount).map fun amount =>
      .shift unit (if sign == some '-' then -amount else amount)) := by
  rw [Option.map_eq_bind]
  refine ofOption_bind fun n read => ?_
  have bounds := Token.number64?_bounds read
  rw [turned_eq (by omega), Outcome.ok_bind]
  rfl

theorem offset_eq {hours : List Char} {minutes : Option (List Char)} (sign : Char)
    (run : IsRun p least 2 hours) (runs : ∀ digits ∈ minutes, IsRun p 2 2 digits) :
    offset sign hours minutes = ofOption (do
      let hours ← Token.number? hours
      let seconds : Int := hours * 3600 + (minutes.bind Token.number?).getD 0 * 60
      return .offset (if sign == '-' then -seconds else seconds)) := by
  refine ofOption_bind fun n read => ?_
  have few : n < 100 := Token.number?_lt run read
  have fewer : (minutes.bind Token.number?).getD 0 < 100 := by
    cases known : minutes.bind Token.number? with
    | none => decide
    | some m =>
      obtain ⟨digits, given, readMinutes⟩ := Option.bind_eq_some_iff.mp known
      exact Token.number?_lt (runs digits given) readMinutes
  rw [signed_eq_ok (by omega), Outcome.ok_bind, signed_eq_ok (by omega), Outcome.ok_bind,
    signed_eq_ok (by omega), Outcome.ok_bind, turned_eq (by omega), Outcome.ok_bind]
  rfl

end Values

theorem americanForm_eq : americanForm = ofOption <$> Token.americanForm := by
  simp only [americanForm, Token.americanForm, map_bind, map_pure]
  refine bind_congr fun month => bind_congr fun _ => bind_congr fun day => bind_congr fun _ => ?_
  exact Token.takes_americanYear.bind_congr fun _ year run =>
    congrArg pure (americanDate_eq run month day)

theorem monthYearForm_eq : monthYearForm = ofOption <$> Token.monthYearForm := by
  simp only [monthYearForm, Token.monthYearForm, Token.monthWord_eq, map_bind, map_pure,
    bind_map_left]
  refine Token.takes_monthIndexWord.bind_congr fun _ index inYear => bind_congr fun _ =>
    bind_congr fun year => congrArg pure (monthYear_eq inYear year)

theorem dayMonthForm_eq : dayMonthForm = ofOption <$> Token.dayMonthForm := by
  simp only [dayMonthForm, Token.dayMonthForm, Token.monthWord_eq, map_bind, map_pure,
    bind_map_left]
  refine bind_congr fun day => bind_congr fun _ => bind_congr fun _ =>
    Token.takes_monthIndexWord.bind_congr fun _ index inYear => bind_congr fun year =>
    congrArg pure (monthDay_eq inYear year day)

theorem monthDayForm_eq : monthDayForm = ofOption <$> Token.monthDayForm := by
  simp only [monthDayForm, Token.monthDayForm, Token.monthWord_eq, map_bind, map_pure,
    bind_map_left]
  refine Token.takes_monthIndexWord.bind_congr fun _ index inYear => bind_congr fun _ =>
    bind_congr fun day => bind_congr fun _ => bind_congr fun _ => bind_congr fun year =>
    congrArg pure (monthDay_eq inYear year day)

theorem shiftForm_eq : shiftForm = ofOption <$> Token.shiftForm := by
  simp only [shiftForm, Token.shiftForm, map_bind, map_pure, shift_eq]

theorem offsetForm_eq : offsetForm = ofOption <$> Token.offsetForm := by
  simp only [offsetForm, Token.offsetForm, map_bind, map_pure]
  refine bind_congr fun sign => takes_upTo.bind_congr fun piece hours taken => ?_
  obtain ⟨rfl, run⟩ := taken
  exact Token.takes_minutes.bind_congr fun _ minutes runs =>
    congrArg pure (offset_eq sign run runs)

theorem scan_eq : scan = ofOption <$> Token.scan := by
  rw [scan, Token.scan, ← firstOf_map, forms, americanForm_eq, monthYearForm_eq, dayMonthForm_eq,
    monthDayForm_eq, shiftForm_eq, offsetForm_eq]
  rfl

end Bounded

end ConfigExpr.DatePhrase
