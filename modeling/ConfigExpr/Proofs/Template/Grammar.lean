import ConfigExpr.Proofs.DatePhrase.Scanning
import ConfigExpr.Proofs.Outcome
import ConfigExpr.Proofs.Text.Numerals
import ConfigExpr.Template.Render

/-!
The written form of templates. A template is a row of parts: characters that stand for themselves,
doubled percent signs, and conversions. Reading what is written gives back what each part means, so
a template in this form is refused for the length of its output alone, unless it asks for a percent
sign by a conversion that says more than that.
-/
namespace ConfigExpr.Template
open Text Scan

structure Count where
  digits : List Char
  filled : digits ≠ []
  ascii : ∀ c ∈ digits, isAsciiDigit c = true
  within : decimalValue digits ≤ numberLimit

def Count.value (n : Count) : Nat :=
  decimalValue n.digits

inductive Flag where
  | left
  | plus
  | zeros
  | blanks
  | padding (c : Char)
deriving DecidableEq, Repr

namespace Flag

def text : Flag → List Char
  | left => ['-']
  | plus => ['+']
  | zeros => ['0']
  | blanks => [' ']
  | padding c => ['\'', c]

def apply (layout : Layout) : Flag → Layout
  | left => { layout with leftAlign := true }
  | plus => { layout with plusSign := true }
  | zeros => { layout with padding := '0' }
  | blanks => { layout with padding := ' ' }
  | padding c => { layout with padding := c }

end Flag

/-- The specifiers, of which the last stands for a percent sign and takes no value. -/
def specifiers : List Char :=
  ['b', 'c', 'd', 'e', 'E', 'f', 'F', 'g', 'G', 'o', 's', 'u', 'x', 'X', '%']

structure Conversion where
  argument : Option Count
  flags : List Flag
  width : Option Count
  precision : Option Count
  specifier : Char
  counted : ∀ number, argument = some number → 0 < number.value
  known : specifier ∈ specifiers

namespace Conversion
variable (c : Conversion)

def argumentText : List Char :=
  c.argument.elim [] fun number => number.digits ++ ['$']

def flagText : List Char :=
  c.flags.flatMap Flag.text

def widthText : List Char :=
  c.width.elim [] Count.digits

def precisionText : List Char :=
  c.precision.elim [] fun number => '.' :: number.digits

def text : List Char :=
  c.argumentText ++ (c.flagText ++ (c.widthText ++ (c.precisionText ++ [c.specifier])))

/-- A zero that a width starts with is a flag as well. -/
def layout : Layout :=
  let layout := c.flags.foldl Flag.apply plain
  if c.widthText.head? = some '0' then Flag.zeros.apply layout else layout

def directive : Directive where
  argument := c.argument.map Count.value
  layout := c.layout
  width := c.width.elim 0 Count.value
  precision := c.precision.map Count.value
  specifier := c.specifier

end Conversion

inductive Part where
  | literal (c : Char) (ordinary : c ≠ '%')
  | percent
  | conversion (c : Conversion)

namespace Part

def text : Part → List Char
  | literal c _ => [c]
  | percent => ['%', '%']
  | conversion c => '%' :: c.text

/-- What a part means; a conversion of which only the specifier for a percent sign is written is a
doubled percent sign. -/
def piece : Part → Piece
  | literal c _ => .literal c
  | percent => .literal '%'
  | conversion c => if c.text = ['%'] then .literal '%' else .directive c.directive

end Part

def templateText (parts : List Part) : List Char :=
  parts.flatMap Part.text

theorem takeNumber_append {digits rest : List Char} (ascii : ∀ c ∈ digits, isAsciiDigit c = true)
    (stops : Stops isAsciiDigit rest) :
    takeNumber (digits ++ rest) =
      (if digits = [] then none else some (decimalValue digits), rest) := by
  rw [takeNumber, takeWhile_append ascii stops, dropWhile_append ascii stops]
  cases digits with
  | nil => rfl
  | cons c digits => rfl

theorem takeNumber_count (number : Count) {rest : List Char} (stops : Stops isAsciiDigit rest) :
    takeNumber (number.digits ++ rest) = (some number.value, rest) := by
  rw [takeNumber_append number.ascii stops, if_neg number.filled, Count.value]

def isFlagMark (c : Char) : Bool :=
  c == '-' || c == '+' || c == '0' || c == ' ' || c == '\''

theorem not_isFlagMark_of_digit {c : Char} (digit : isAsciiDigit c = true) (notZero : c ≠ '0') :
    isFlagMark c = false := by
  rw [Bool.eq_false_iff]
  intro mark
  simp only [isFlagMark, Bool.or_eq_true, beq_iff_eq] at mark
  rcases mark with (((rfl | rfl) | zero) | rfl) | rfl
  case inl.inl.inr => exact notZero zero
  all_goals cases digit

theorem takeFlags_stops (layout : Layout) {text : List Char} (stops : Stops isFlagMark text) :
    takeFlags layout text = .ok (layout, text) := by
  unfold takeFlags
  split
  case h_7 => rfl
  all_goals cases stops _ rfl

theorem takeFlags_flags (flags : List Flag) (layout : Layout) (rest : List Char) :
    takeFlags layout (flags.flatMap Flag.text ++ rest) =
      takeFlags (flags.foldl Flag.apply layout) rest := by
  induction flags generalizing layout with
  | nil => rfl
  | cons flag flags ih =>
    rw [List.flatMap_cons, List.foldl_cons, ← ih]
    cases flag with
    | left | plus | zeros | blanks | padding c => rfl

theorem takeFlags_digits {digits rest : List Char} (ascii : ∀ c ∈ digits, isAsciiDigit c = true)
    (stops : Stops isFlagMark rest) (layout : Layout) :
    takeFlags layout (digits ++ rest) =
      .ok (if digits.head? = some '0' then Flag.zeros.apply layout else layout,
        digits.dropWhile (· == '0') ++ rest) := by
  induction digits generalizing layout with
  | nil => exact takeFlags_stops layout stops
  | cons c digits ih =>
    have others := ih fun d member => ascii d (List.mem_cons_of_mem c member)
    by_cases zero : c = '0'
    · subst zero
      have kept : (if digits.head? = some '0' then Flag.zeros.apply (Flag.zeros.apply layout)
          else Flag.zeros.apply layout) = Flag.zeros.apply layout := ite_self _
      exact (others (Flag.zeros.apply layout)).trans (by rw [kept]; rfl)
    · have noMark := not_isFlagMark_of_digit (ascii c List.mem_cons_self) zero
      have kept : (c :: digits).dropWhile (· == '0') = c :: digits :=
        dropWhile_stops (stops_cons (beq_eq_false_iff_ne.mpr zero))
      have noZero : (c :: digits).head? ≠ some '0' := fun same => zero (Option.some.inj same)
      rw [kept, if_neg noZero]
      exact takeFlags_stops layout (stops_cons noMark)

namespace Conversion
variable (c : Conversion) (rest : List Char)

theorem specifier_is_no_mark :
    isFlagMark c.specifier = false ∧ isAsciiDigit c.specifier = false ∧ c.specifier ≠ '.' ∧
      c.specifier ≠ '$' := by
  have each : specifiers.all (fun s =>
      isFlagMark s = false ∧ isAsciiDigit s = false ∧ s ≠ '.' ∧ s ≠ '$') = true := by decide
  exact of_decide_eq_true (List.all_eq_true.mp each c.specifier c.known)

theorem widthText_ascii : ∀ d ∈ c.widthText, isAsciiDigit d = true := by
  rw [widthText]
  cases c.width with
  | none => exact fun d member => (List.not_mem_nil member).elim
  | some number => exact number.ascii

def ending : List Char :=
  c.precisionText ++ c.specifier :: rest

theorem ending_stops {p : Char → Bool} (point : p '.' = false) (last : p c.specifier = false) :
    Stops p (c.ending rest) := by
  rw [ending, precisionText]
  cases c.precision with
  | none => exact stops_cons last
  | some number => exact stops_cons point

theorem takePrecision_ending :
    takePrecision (c.ending rest) = .ok (c.precision.map Count.value, c.specifier :: rest) := by
  obtain ⟨-, noDigit, noPoint, -⟩ := c.specifier_is_no_mark
  rw [ending, precisionText]
  cases c.precision with
  | none => rw [Option.elim_none, List.nil_append, takePrecision.eq_2 _ fun _ same =>
      noPoint (List.cons.inj same).1]; rfl
  | some number =>
    have within : ¬ numberLimit < number.value := Nat.not_lt.mpr number.within
    rw [Option.elim_some, List.cons_append, takePrecision,
      takeNumber_count number (stops_cons noDigit)]
    exact if_neg within

theorem takeWidth_ending :
    takeWidth (c.widthText.dropWhile (· == '0') ++ c.ending rest) =
      .ok (c.width.elim 0 Count.value, c.ending rest) := by
  obtain ⟨-, noDigit, -⟩ := c.specifier_is_no_mark
  have ascii : ∀ d ∈ c.widthText.dropWhile (· == '0'), isAsciiDigit d = true := fun d member =>
    c.widthText_ascii d ((List.dropWhile_sublist _).subset member)
  have value : decimalValue (c.widthText.dropWhile (· == '0')) = c.width.elim 0 Count.value := by
    rw [Numeral.decimalValue_dropWhile_zero, widthText]
    cases c.width with
    | none | some number => rfl
  have within : ¬ numberLimit < c.width.elim 0 Count.value := by
    cases c.width with
    | none => exact Nat.not_lt_zero _
    | some number => exact Nat.not_lt.mpr number.within
  rw [takeWidth, takeNumber_append ascii (c.ending_stops rest rfl noDigit)]
  have read : (if c.widthText.dropWhile (· == '0') = [] then none else
      some (decimalValue (c.widthText.dropWhile (· == '0')))).getD 0 =
        c.width.elim 0 Count.value := by
    rw [← value]
    split
    next nothing => rw [nothing]; rfl
    next => rfl
  dsimp only
  rw [read]
  exact if_neg within

theorem takeFlags_ending :
    takeFlags plain (c.flagText ++ (c.widthText ++ c.ending rest)) =
      .ok (c.layout, c.widthText.dropWhile (· == '0') ++ c.ending rest) := by
  obtain ⟨noMark, -⟩ := c.specifier_is_no_mark
  rw [flagText, takeFlags_flags,
    takeFlags_digits c.widthText_ascii (c.ending_stops rest rfl noMark), layout]

theorem no_dollar_behind_digits (flags : List Flag) {text : List Char}
    (others : (text.dropWhile isAsciiDigit).head? ≠ some '$') :
    ((flags.flatMap Flag.text ++ text).dropWhile isAsciiDigit).head? ≠ some '$' := by
  induction flags with
  | nil => exact others
  | cons flag flags ih =>
    rw [List.flatMap_cons, List.append_assoc]
    cases flag with
    | zeros => exact ih
    | left | plus | blanks | padding c =>
      intro same
      cases Option.some.inj same

theorem takeArgument_none {text : List Char}
    (others : (text.dropWhile isAsciiDigit).head? ≠ some '$') :
    takeArgument text = .ok (none, text) := by
  have behind : (takeNumber text).2 = text.dropWhile isAsciiDigit := by
    have split := List.takeWhile_append_dropWhile (p := isAsciiDigit) (l := text)
    rw [takeNumber]
    split
    next nothing => rw [nothing, List.nil_append] at split; exact split.symm
    next => rfl
  rw [takeArgument]
  split
  next number rest taken =>
    rw [← behind, taken] at others
    exact absurd rfl others
  next => rfl

theorem takeArgument_text :
    takeArgument (c.text ++ rest) =
      .ok (c.argument.map Count.value, c.flagText ++ (c.widthText ++ c.ending rest)) := by
  have parts : c.text ++ rest =
      c.argumentText ++ (c.flagText ++ (c.widthText ++ c.ending rest)) := by
    simp only [text, ending, List.append_assoc, List.cons_append, List.nil_append]
  rw [parts, argumentText]
  cases numbered : c.argument with
  | none =>
    refine takeArgument_none (no_dollar_behind_digits c.flags ?_)
    obtain ⟨-, noDigit, -, noDollar⟩ := c.specifier_is_no_mark
    rw [dropWhile_append c.widthText_ascii (c.ending_stops rest rfl noDigit)]
    have stops : Stops (· == '$') (c.ending rest) :=
      c.ending_stops rest rfl (beq_eq_false_iff_ne.mpr noDollar)
    exact fun same => beq_eq_false_iff_ne.mp (stops _ same) rfl
  | some number =>
    have counted : 0 < number.value := c.counted number numbered
    have within : ¬ (number.value = 0 || decide (numberLimit < number.value)) = true := by
      have := number.within
      rw [Count.value] at counted ⊢
      simp only [Bool.or_eq_true, decide_eq_true_eq]
      omega
    rw [Option.elim_some, List.append_assoc, List.singleton_append, takeArgument,
      takeNumber_count number (stops_cons rfl)]
    exact if_neg within

theorem readDirective_text : readDirective (c.text ++ rest) = .ok (c.directive, rest) := by
  simp only [readDirective, takeArgument_text, takeFlags_ending, takeWidth_ending,
    takePrecision_ending, Outcome.ok_bind]
  rfl

theorem text_ne_nil : c.text ≠ [] := by
  simp [text]

theorem text_of_percent (starts : c.text.head? = some '%') : c.text = ['%'] := by
  have digit {number : Count} {rest : List Char} : (number.digits ++ rest).head? ≠ some '%' := by
    have stops : Stops (· == '%') (number.digits ++ rest) :=
      stops_append number.filled fun c member => beq_eq_false_iff_ne.mpr fun same => by
        cases same ▸ number.ascii c member
    exact fun same => beq_eq_false_iff_ne.mp (stops _ same) rfl
  rw [text] at starts ⊢
  -- From the front: whichever part is written first starts with another character.
  cases argument : c.argument with
  | some number =>
    rw [argumentText, argument, Option.elim_some, List.append_assoc] at starts
    exact absurd starts digit
  | none =>
    cases flags : c.flags with
    | cons flag flags' =>
      rw [argumentText, argument, flagText, flags, Option.elim_none, List.nil_append,
        List.flatMap_cons] at starts
      cases flag with
      | left | plus | zeros | blanks | padding c => cases Option.some.inj starts
    | nil =>
      cases width : c.width with
      | some number =>
        rw [argumentText, argument, flagText, flags, widthText, width] at starts
        exact absurd starts digit
      | none =>
        rw [argumentText, argument, flagText, flags, widthText, width] at starts ⊢
        cases precision : c.precision with
        | some number =>
          rw [precisionText, precision] at starts
          cases Option.some.inj starts
        | none =>
          rw [precisionText, precision] at starts ⊢
          exact congrArg (fun c => [c]) (Option.some.inj starts)

end Conversion

theorem Part.text_length_pos (part : Part) : 0 < part.text.length := by
  cases part with
  | literal c ordinary | percent | conversion c => exact Nat.succ_pos _

theorem pieces_templateText (parts : List Part) {steps : Nat}
    (enough : (templateText parts).length ≤ steps) :
    pieces steps (templateText parts) = parts.map Part.piece := by
  -- Every part uses up one step and at least one character.
  induction parts generalizing steps with
  | nil =>
    cases steps with
    | zero | succ steps => rfl
  | cons part parts ih =>
    have positive := part.text_length_pos
    rw [templateText, List.flatMap_cons, ← templateText] at enough ⊢
    rw [List.length_append] at enough
    obtain ⟨steps, rfl⟩ := Nat.exists_eq_add_one.mpr (show 0 < steps by omega)
    have others : pieces steps (templateText parts) = parts.map Part.piece := ih (by omega)
    rw [List.map_cons, ← others]
    cases part with
    | literal c ordinary =>
      exact pieces.eq_5 steps c _ (fun _ same _ => ordinary same) (fun same => ordinary same)
    | percent => rfl
    | conversion c =>
      rw [Part.piece, Part.text]
      split
      next alone => rw [alone]; rfl
      next more =>
        have noPercent : ∀ text, c.text ++ templateText parts = '%' :: text → False := by
          intro text same
          cases written : c.text with
          | nil => exact c.text_ne_nil written
          | cons d behind =>
            rw [written] at same
            refine more (c.text_of_percent ?_)
            rw [written, List.head?_cons, (List.cons.inj same).1]
        rw [List.cons_append, pieces.eq_4 _ _ noPercent, c.readDirective_text]

theorem parse_templateText (parts : List Part) :
    parse (templateText parts) = parts.map Part.piece :=
  pieces_templateText parts (Nat.le_refl _)

section Numbers
variable {text rest : List Char} {d : Directive}

theorem takeArgument_ne_zero {argument : Option Nat}
    (taken : takeArgument text = .ok (argument, rest)) : argument ≠ some 0 := by
  rw [takeArgument] at taken
  split at taken
  next number behind _ =>
    split at taken
    next => cases taken
    next counted =>
      obtain ⟨rfl, -⟩ := Prod.mk.inj (Except.ok.inj taken)
      rintro ⟨⟩
      exact counted rfl
  next =>
    obtain ⟨rfl, -⟩ := Prod.mk.inj (Except.ok.inj taken)
    exact nofun

theorem readDirective_ne_zero (read : readDirective text = .ok (d, rest)) :
    d.argument ≠ some 0 := by
  obtain ⟨⟨argument, text⟩, taken, read⟩ := Outcome.bind_eq_ok.mp read
  obtain ⟨⟨layout, text⟩, -, read⟩ := Outcome.bind_eq_ok.mp read
  obtain ⟨⟨width, text⟩, -, read⟩ := Outcome.bind_eq_ok.mp read
  obtain ⟨⟨precision, text⟩, -, read⟩ := Outcome.bind_eq_ok.mp read
  cases text with
  | nil => cases read
  | cons specifier text =>
    obtain ⟨rfl, -⟩ := Prod.mk.inj (Except.ok.inj read)
    exact takeArgument_ne_zero taken

theorem number_ne_zero_of_mem_pieces {steps : Nat} (listed : .directive d ∈ pieces steps text) :
    d.argument ≠ some 0 := by
  induction steps, text using pieces.induct with
  | case1 | case2 => cases listed
  | case3 steps rest ih =>
    rcases List.mem_cons.mp listed with same | later
    · cases same
    · exact ih later
  | case4 steps rest noPercent first behind read ih =>
    rw [pieces.eq_4 steps rest noPercent, read] at listed
    rcases List.mem_cons.mp listed with same | later
    · cases same
      exact readDirective_ne_zero read
    · exact ih later
  | case5 steps rest noPercent fault read =>
    rw [pieces.eq_4 steps rest noPercent, read] at listed
    cases List.mem_singleton.mp listed
  | case6 steps c rest noPair noPercent ih =>
    rw [pieces.eq_5 steps c rest noPair noPercent] at listed
    rcases List.mem_cons.mp listed with same | later
    · cases same
    · exact ih later

end Numbers

end ConfigExpr.Template
