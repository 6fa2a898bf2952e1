import ConfigExpr.Proofs.DatePhrase.DayPhrases
import ConfigExpr.Proofs.DatePhrase.Taking

/-!
Every token takes something. A scanner leaves an end of the text that it is given, and one that
starts with a part that takes something leaves a shorter one, whatever its other parts do. Of the
tokens themselves it is only told here that a weekday is one of seven.
-/
namespace ConfigExpr.Scan
variable {α β : Type} {x : Scan α} {f : α → Scan β} {p : Char → Bool} {a : α} {c : Char}
  {most : Nat} {Q : β → Prop}

/-- What is left is always an end of the text. -/
def Keeps (x : Scan α) : Prop :=
  Takes x fun _ _ => True

/-- Something is always taken. -/
def Consumes (x : Scan α) : Prop :=
  Takes x fun piece _ => piece ≠ []

theorem Consumes.keeps (consumes : Consumes x) : Keeps x :=
  Takes.mono consumes fun _ _ _ => trivial

theorem Keeps.bind (first : Keeps x) (next : ∀ a, Takes (f a) fun _ b => Q b) :
    Takes (x >>= f) fun _ b => Q b :=
  Takes.bind first fun _ a _ => next a

theorem Consumes.bind (first : Consumes x) (next : ∀ a, Takes (f a) fun _ b => Q b) :
    Takes (x >>= f) fun piece b => piece ≠ [] ∧ Q b :=
  Takes.bind first fun _ a filled => (next a).mono fun more _ holds =>
    ⟨List.append_ne_nil_of_left_ne_nil filled more, holds⟩

theorem Keeps.opt (keeps : Keeps x) : Keeps (opt x) :=
  Takes.optional trivial keeps

theorem keeps_pure : Keeps (pure a : Scan α) :=
  takes_pure trivial

theorem consumes_char : Consumes (char c) :=
  takes_char.mono fun _ _ single => single ▸ List.cons_ne_nil _ _

theorem consumes_one : Consumes (one p) :=
  takes_one.mono fun _ _ taken => taken.1 ▸ List.cons_ne_nil _ _

theorem consumes_some1 : Consumes (some1 p) :=
  takes_some1.mono fun _ _ taken => taken.2.1

theorem consumes_upTo : Consumes (upTo most p) :=
  takes_upTo.mono fun _ _ taken => List.length_pos_iff.mp taken.2.long

theorem consumes_exactly : Consumes (exactly (most + 1) p) :=
  takes_exactly.mono fun _ _ taken =>
    List.length_pos_iff.mp (Nat.lt_of_lt_of_le most.succ_pos taken.2.long)

theorem keeps_exactly : Keeps (exactly most p) :=
  takes_exactly.mono fun _ _ _ => trivial

theorem keeps_run : Keeps (run p) :=
  takes_run.mono fun _ _ _ => trivial

theorem keeps_value {value? : Option α} : Keeps (value value?) :=
  takes_value.mono fun _ _ _ => trivial

theorem keeps_require {condition : Bool} : Keeps (require condition) :=
  takes_require.mono fun _ _ _ => trivial

theorem keeps_wordEnd : Keeps wordEnd :=
  takes_wordEnd.mono fun _ _ _ => trivial

theorem consumes_word : Consumes word :=
  (Consumes.bind consumes_some1 fun _ => Keeps.bind keeps_wordEnd fun _ => keeps_pure).mono
    fun _ _ taken => taken.1

end ConfigExpr.Scan

namespace ConfigExpr.DatePhrase
open Text Scan

namespace Token

/-- Weekdays are numbered from zero to six. -/
def isHeld : Token → Bool
  | .weekday day _ => day < 7
  | _ => true

/-- Something is taken, and a token that is read is held. -/
def Advances (form : Form) : Prop :=
  Takes form fun piece token => piece ≠ [] ∧ token.all isHeld = true

theorem isHeld_weekday? (word : String) (direction : Direction) :
    ((weekdayOfWord? word).map fun day => Token.weekday day direction).all isHeld = true := by
  cases named : weekdayOfWord? word with
  | none => rfl
  | some day => exact decide_eq_true (WeekdayWord.mk word day named).day_lt

theorem isHeld_fullDate (year month day : List Char) :
    (fullDate year month day).all isHeld = true := by
  rw [fullDate]
  cases number? year <;> cases number? month <;> cases number? day <;> rfl

theorem consumes_monthWord : Consumes monthWord :=
  (Consumes.bind consumes_some1 fun _ => Keeps.bind keeps_value fun _ =>
    Keeps.bind consumes_char.keeps.opt fun _ => keeps_pure).mono fun _ _ taken => taken.1

theorem keeps_yearEnd : Keeps yearEnd :=
  Keeps.bind keeps_exactly fun _ => Keeps.bind keeps_wordEnd fun _ => keeps_pure

theorem keeps_ordinalEnding : Keeps ordinalEnding :=
  Keeps.bind keeps_exactly fun _ => keeps_require

theorem keeps_halfMark : Keeps halfMark :=
  Keeps.bind consumes_one.keeps fun _ => Keeps.bind consumes_char.keeps.opt fun _ =>
    Keeps.bind consumes_char.keeps fun _ => Keeps.bind consumes_char.keeps.opt fun _ => keeps_pure

theorem timestamp_advances : Advances timestampForm :=
  consumes_char.bind fun _ => consumes_char.keeps.opt.bind fun minus =>
    consumes_some1.keeps.bind fun seconds => takes_pure <| by
      cases number64? minus.isSome seconds <;> rfl

theorem iso_advances : Advances isoForm :=
  consumes_exactly.bind fun year => consumes_char.keeps.bind fun _ =>
    consumes_upTo.keeps.bind fun month => consumes_char.keeps.bind fun _ =>
    consumes_upTo.keeps.bind fun day => consumes_char.keeps.opt.bind fun _ =>
    takes_pure (isHeld_fullDate year month day)

theorem slash_advances : Advances slashForm :=
  consumes_exactly.bind fun year => consumes_char.keeps.bind fun _ =>
    consumes_upTo.keeps.bind fun month => consumes_char.keeps.bind fun _ =>
    consumes_upTo.keeps.bind fun day => takes_pure (isHeld_fullDate year month day)

theorem american_advances : Advances americanForm := by
  have years : Keeps (firstOf [yearEnd, do let year ← digitsOf 2; wordEnd; return year]) :=
    takes_firstOf (List.forall_mem_cons.mpr ⟨keeps_yearEnd, List.forall_mem_singleton.mpr
      (keeps_exactly.bind fun _ => keeps_wordEnd.bind fun _ => keeps_pure)⟩)
  refine consumes_upTo.bind fun month => consumes_char.keeps.bind fun _ =>
    consumes_upTo.keeps.bind fun day => consumes_char.keeps.bind fun _ =>
    years.bind fun year => takes_pure ?_
  cases number? year <;> cases number? month <;> cases number? day <;> rfl

theorem dayFirst_advances : Advances dayFirstForm :=
  consumes_upTo.bind fun day => consumes_one.keeps.bind fun _ =>
    consumes_upTo.keeps.bind fun month => consumes_one.keeps.bind fun _ =>
    keeps_yearEnd.bind fun year => takes_pure (isHeld_fullDate year month day)

theorem monthYear_advances : Advances monthYearForm :=
  consumes_monthWord.bind fun _ => consumes_some1.keeps.bind fun _ =>
    keeps_yearEnd.bind fun year => takes_pure <| by cases number? year <;> rfl

theorem dayMonth_advances : Advances dayMonthForm :=
  consumes_upTo.bind fun day => keeps_ordinalEnding.opt.bind fun _ =>
    keeps_run.bind fun _ => consumes_monthWord.keeps.bind fun _ =>
    (Keeps.opt (consumes_some1.keeps.bind fun _ => keeps_yearEnd)).bind fun _ =>
    takes_pure <| by cases number? day <;> rfl

theorem monthDay_advances : Advances monthDayForm :=
  consumes_monthWord.bind fun _ => consumes_some1.keeps.bind fun _ =>
    consumes_upTo.keeps.bind fun day => keeps_ordinalEnding.opt.bind fun _ =>
    keeps_wordEnd.bind fun _ =>
    (Keeps.opt (consumes_char.keeps.opt.bind fun _ => consumes_some1.keeps.bind fun _ =>
      keeps_yearEnd)).bind fun _ =>
    takes_pure <| by cases number? day <;> rfl

theorem time_advances : Advances timeForm := by
  have seconds : Keeps secondPart :=
    consumes_char.keeps.bind fun _ => keeps_exactly.bind fun _ =>
      (Keeps.opt (consumes_one.keeps.bind fun _ => consumes_some1.keeps)).bind fun _ => keeps_pure
  refine consumes_upTo.bind fun hour => consumes_char.keeps.bind fun _ =>
    keeps_exactly.bind fun minute => seconds.opt.bind fun _ =>
    (Keeps.opt (keeps_run.bind fun _ => keeps_halfMark)).bind fun _ => takes_pure ?_
  cases number? hour <;> cases number? minute <;> rfl

theorem hour_advances : Advances hourForm :=
  consumes_upTo.bind fun hour => keeps_run.bind fun _ => keeps_halfMark.bind fun _ =>
    takes_pure <| by cases number? hour <;> rfl

theorem shift_advances : Advances shiftForm := by
  refine Takes.bind consumes_one.keeps.opt fun sign _ _ => ?_
  refine Takes.bind keeps_run fun gap _ _ => ?_
  refine Takes.mono (consumes_some1.bind fun amount => keeps_run.bind fun _ =>
    consumes_word.keeps.bind fun _ => keeps_value.bind fun unit => takes_pure ?_)
    fun _ _ ⟨filled, held⟩ => ⟨?_, held⟩
  · cases number64? false amount <;> rfl
  · exact List.append_ne_nil_of_right_ne_nil sign (List.append_ne_nil_of_right_ne_nil gap filled)

theorem ago_advances : Advances agoForm :=
  consumes_word.bind fun _ => keeps_require.bind fun _ => takes_pure rfl

theorem keyword_advances : Advances keywordForm := by
  refine consumes_word.bind fun word => ?_
  refine takes_value.bind fun _ token ⟨_, known⟩ => takes_pure ?_
  unfold keyword? at known
  split at known
  all_goals cases known
  all_goals rfl

theorem monthEdge_advances : Advances monthEdgeForm := by
  refine consumes_some1.bind fun edge => consumes_some1.keeps.bind fun _ =>
    consumes_some1.keeps.bind fun _ => consumes_some1.keeps.bind fun _ =>
    consumes_word.keeps.bind fun _ => keeps_require.bind fun _ => ?_
  split
  next => exact takes_pure rfl
  next => exact takes_pure rfl
  next => exact takes_value.mono fun _ _ taken => nomatch taken.2

theorem directed_advances : Advances directedForm :=
  consumes_some1.bind fun _ => keeps_value.bind fun direction => consumes_some1.keeps.bind fun _ =>
    consumes_word.keeps.bind fun word => takes_pure <| by
      cases TimeUnit.ofWord? word with
      | none => exact isHeld_weekday? word direction
      | some unit => rfl

theorem zone_advances : Advances zoneForm :=
  consumes_word.bind fun _ => keeps_require.bind fun _ => takes_pure rfl

theorem offset_advances : Advances offsetForm :=
  consumes_one.bind fun _ => consumes_upTo.keeps.bind fun hours =>
    (Keeps.opt (consumes_char.keeps.opt.bind fun _ => keeps_exactly)).bind fun _ =>
    takes_pure <| by cases number? hours <;> rfl

theorem weekday_advances : Advances weekdayForm :=
  consumes_word.bind fun word => takes_pure (isHeld_weekday? word .this)

theorem scan_advances : Advances scan := by
  refine takes_firstOf ?_
  simp only [forms, List.forall_mem_cons]
  exact ⟨timestamp_advances, iso_advances, slash_advances, american_advances, dayFirst_advances,
    monthYear_advances, dayMonth_advances, monthDay_advances, time_advances, hour_advances,
    shift_advances, ago_advances, keyword_advances, monthEdge_advances, directed_advances,
    zone_advances, offset_advances, weekday_advances,
    fun form member => (List.not_mem_nil member).elim⟩

end Token

end ConfigExpr.DatePhrase
