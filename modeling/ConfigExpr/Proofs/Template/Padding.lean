import ConfigExpr.Proofs.Template.Length
import ConfigExpr.Proofs.Text.DecimalLiterals

/-!
Fields and their padding. What a directive shows without a width is its bare field; with a width the
padding is put into the bare field at one place, which the flags and the sign decide. A field is
refused exactly if the output would get too long with it.
-/
namespace ConfigExpr.Template
open Text Scan

def isSign (c : Char) : Bool :=
  ['+', '-'].contains c

/-- The specifiers of numbers with a sign. The others show no sign, also if their text begins with the
character of one. -/
def signedSpecifiers : List Char :=
  ['d', 'e', 'E', 'f', 'F', 'g', 'G']

namespace Directive
variable (d : Directive)

def withWidth (width : Nat) : Directive :=
  { d with width }

/-- How many characters of a bare field are its sign. -/
def signLength (bare : List Char) : Nat :=
  if d.specifier ∈ signedSpecifiers ∧ bare.head?.any isSign = true then 1 else 0

/-- How many characters of a bare field stand in front of its padding. -/
def paddingPlace (bare : List Char) : Nat :=
  if d.layout.leftAlign then bare.length
  else if d.layout.padding = '0' then d.signLength bare
  else 0

def padded (bare : List Char) : List Char :=
  bare.take (d.paddingPlace bare) ++
    (List.replicate (d.width - bare.length) d.layout.padding ++ bare.drop (d.paddingPlace bare))

theorem length_padded (bare : List Char) : (d.padded bare).length = max d.width bare.length := by
  have parts := congrArg List.length (List.take_append_drop (d.paddingPlace bare) bare)
  rw [List.length_append] at parts
  simp only [padded, List.length_append, List.length_replicate]
  omega

theorem padded_withWidth_zero (bare : List Char) : (d.withWidth 0).padded bare = bare := by
  rw [padded, withWidth, Nat.zero_sub, List.replicate_zero, List.nil_append, List.take_append_drop]

end Directive

theorem isSign_of_mem_ofUnits {units places : Nat} {c : Char}
    (member : c ∈ DecimalText.ofUnits units places) : isSign c = false := by
  have digits {c : Char} (member : c ∈ Numeral.padded (places + 1) units) : isSign c = false :=
    noSign_of_digit (Numeral.isAsciiDigit_of_mem_padded member)
  rw [DecimalText.ofUnits, DecimalText.withPoint] at member
  split at member
  next => exact digits member
  next =>
    rcases List.mem_append.mp member with whole | rest
    · exact digits (List.mem_of_mem_take whole)
    · rcases List.mem_cons.mp rest with rfl | fraction
      · rfl
      · exact digits (List.mem_of_mem_drop fraction)

theorem mem_of_mem_stripFractionZeros {text : List Char} {c : Char}
    (member : c ∈ DecimalText.stripFractionZeros text) : c ∈ text := by
  rw [DecimalText.stripFractionZeros] at member
  split at member
  next =>
    have kept := (List.dropWhile_sublist _).subset (List.mem_reverse.mp member)
    exact List.mem_reverse.mp ((List.dropWhile_sublist _).subset kept)
  next => exact member

theorem isSign_of_mem_notFinite {x : Binary64} {c : Char}
    (member : c ∈ DecimalText.notFinite x) : isSign c = false := by
  have words : ("NaN".toList ++ "inf".toList).any isSign = false := by decide
  refine Bool.eq_false_iff.mpr (List.any_eq_false.mp words c ?_)
  rw [DecimalText.notFinite] at member
  split at member
  next => exact List.mem_append_left _ member
  next => exact List.mem_append_right _ member

theorem isSign_of_mem_fixed {x : Binary64} {places : Nat} {c : Char}
    (member : c ∈ DecimalText.fixed x places) : isSign c = false := by
  rw [DecimalText.fixed] at member
  split at member
  next => exact isSign_of_mem_ofUnits member
  next => exact isSign_of_mem_notFinite member

theorem isSign_of_mem_mantissa {x : Binary64} {places : Nat} {c : Char}
    (member : c ∈ (DecimalText.scientific x places).1) : isSign c = false := by
  rw [DecimalText.scientific] at member
  split at member
  next => exact isSign_of_mem_ofUnits member
  next => exact isSign_of_mem_notFinite member

theorem exponentText_stops_sign {mantissa : List Char} {exponent : Int} {mark : Char}
    (unsigned : ∀ c ∈ mantissa, isSign c = false) (noSign : isSign mark = false) :
    Stops isSign (exponentText mantissa exponent mark) := by
  cases mantissa with
  | nil => exact stops_cons noSign
  | cons c mantissa => exact stops_cons (unsigned c List.mem_cons_self)

theorem general_stops_sign {x : Binary64} {digits : Nat} {mark : Char}
    (noSign : isSign mark = false) : Stops isSign (general x digits mark) := by
  rw [general]
  dsimp only
  generalize (if x.isNaN then 0 else x.log10.floor) = exponent
  split
  next => exact stops_cons rfl
  split
  next => exact exponentText_stops_sign (fun c => isSign_of_mem_mantissa) noSign
  split
  next =>
    exact exponentText_stops_sign
      (fun c member => isSign_of_mem_mantissa (mem_of_mem_stripFractionZeros member)) noSign
  next =>
    exact stops_of_forall fun c member =>
      isSign_of_mem_fixed (mem_of_mem_stripFractionZeros member)

theorem floatContent_stops_sign {d : Directive} {x : Binary64}
    (known : d.specifier ∈ signedSpecifiers) : Stops isSign (floatContent d x) := by
  have each : signedSpecifiers.any isSign = false := by decide
  have noSign : isSign d.specifier = false :=
    Bool.eq_false_iff.mpr (List.any_eq_false.mp each _ known)
  rw [floatContent]
  split
  next => exact exponentText_stops_sign (fun c => isSign_of_mem_mantissa) noSign
  split
  next => exact stops_of_forall fun c => isSign_of_mem_fixed
  next =>
    refine general_stops_sign ?_
    split <;> rfl

structure IsField (d : Directive) (sign content : List Char) : Prop where
  sign_eq : sign = [] ∨ d.specifier ∈ signedSpecifiers ∧ ∃ c, sign = [c] ∧ isSign c = true
  content : d.specifier ∈ signedSpecifiers → Stops isSign content

theorem IsField.signLength_eq {d : Directive} {sign content : List Char}
    (field : IsField d sign content) : d.signLength (sign ++ content) = sign.length := by
  rw [Directive.signLength]
  rcases field.sign_eq with rfl | ⟨known, c, rfl, isSign⟩
  · refine if_neg fun ⟨known, signed⟩ => ?_
    rw [List.nil_append, Option.any_eq_true_iff_get] at signed
    obtain ⟨some, isSign⟩ := signed
    have noSign := field.content known _ (Option.some_get some).symm
    rw [isSign] at noSign
    cases noSign
  · exact if_pos ⟨known, isSign⟩

theorem isField_of_unsigned {d : Directive} (unsigned : d.specifier ∉ signedSpecifiers)
    (content : List Char) : IsField d [] content :=
  ⟨.inl rfl, fun known => absurd known unsigned⟩

theorem plusOrNone_eq (layout : Layout) :
    plusOrNone layout = [] ∨ ∃ c, plusOrNone layout = [c] ∧ isSign c = true := by
  rw [plusOrNone]
  split
  next => exact .inr ⟨'+', rfl, rfl⟩
  next => exact .inl rfl

theorem isField_integer {d : Directive} (known : d.specifier ∈ signedSpecifiers) (n : Int64) :
    IsField d (integerSign d.layout n) (Numeral.ofNat n.toInt.natAbs) := by
  refine ⟨?_, fun _ => stops_of_forall fun c member =>
    noSign_of_digit (Numeral.isAsciiDigit_of_mem_ofNat member)⟩
  rw [integerSign]
  split
  next => exact .inr ⟨known, '-', rfl, rfl⟩
  next => exact (plusOrNone_eq d.layout).imp_right fun plus => ⟨known, plus⟩

theorem isField_float {d : Directive} (known : d.specifier ∈ signedSpecifiers) (x : Binary64) :
    IsField d (floatSign d.layout x) (floatContent d x.abs) := by
  refine ⟨?_, fun _ => floatContent_stops_sign known⟩
  rw [floatSign]
  split
  next => exact .inr ⟨known, '-', rfl, rfl⟩
  next => exact (plusOrNone_eq d.layout).imp_right fun plus => ⟨known, plus⟩

theorem isField_of_show? {d : Directive} {v : Value} {sign content : List Char}
    (shows : show? d v = .ok (.field sign content)) : IsField d sign content := by
  unfold show? at shows
  dsimp only at shows
  split at shows
  case h_1 text =>
    split at shows
    next => cases shows
    next =>
      cases shows
      exact isField_of_unsigned (by rw [text]; decide) _
  case h_2 integer =>
    cases shows
    exact isField_integer (by rw [integer]; decide) _
  case h_3 word | h_4 word | h_5 word | h_6 word | h_7 word =>
    cases shows
    exact isField_of_unsigned (by rw [word]; decide) _
  case h_8 | h_15 => cases shows
  case h_9 float | h_10 float | h_11 float | h_12 float | h_13 float | h_14 float =>
    cases shows
    exact isField_float (by rw [float]; decide) _

theorem head?_toList_append {front : String} {c : Char} (first : front.toList.head? = some c)
    (behind : String) : (front ++ behind).toList.head? = some c := by
  rw [String.toList_append, List.head?_append, first, Option.some_or]

theorem head?_tooLong : tooLong.toList.head? = some 'R' := by
  have first : "Result exceeds the maximum length of ".toList.head? = some 'R' := rfl
  exact head?_toList_append (head?_toList_append first _) _

theorem head?_unknownSpecifier (c : Char) : (unknownSpecifier c).toList.head? = some 'U' := by
  have first : "Unknown format specifier \"".toList.head? = some 'U' := rfl
  exact head?_toList_append (head?_toList_append first _) _

theorem ne_tooLong_of_show? {d : Directive} {v : Value} {reason : String}
    (refuses : show? d v = .error reason) : reason ≠ tooLong := by
  rintro rfl
  have starts := head?_tooLong
  unfold show? at refuses
  dsimp only at refuses
  split at refuses
  case h_1 =>
    split at refuses
    next =>
      rw [← Except.error.inj refuses] at starts
      exact absurd starts (by decide)
    next => cases refuses
  case h_15 =>
    rw [← Except.error.inj refuses, head?_unknownSpecifier] at starts
    exact absurd starts (by decide)
  all_goals cases refuses

theorem layOut_eq_padded {d : Directive} {sign content : List Char}
    (field : IsField d sign content) :
    layOut d.layout sign content
        (List.replicate (d.width - (sign.length + content.length)) d.layout.padding) =
      d.padded (sign ++ content) := by
  rw [layOut, Directive.padded, Directive.paddingPlace, field.signLength_eq, List.length_append]
  split
  next =>
    rw [← List.length_append, List.take_length, List.drop_length, List.append_nil]
  split
  next => rw [List.take_left, List.drop_left, List.append_assoc]
  next => rw [List.take_zero, List.drop_zero, List.nil_append, List.append_assoc]

theorem show?_withWidth (d : Directive) (width : Nat) (v : Value) :
    show? (d.withWidth width) v = show? d v := rfl

theorem pushField_eq {d : Directive} {sign content : List Char} (field : IsField d sign content)
    (out : Output) :
    pushField d out sign content =
      if outputLimit < out.size + (Utf8.encodeChars (d.padded (sign ++ content))).length then
        .error tooLong
      else .ok (out.push (Utf8.encodeChars (d.padded (sign ++ content)))) := by
  have size : (Utf8.encodeChars (d.padded (sign ++ content))).length = fieldSize d sign content := by
    rw [← layOut_eq_padded field, length_encodeChars_layOut, length_encodeChars_replicate, fieldSize]
  rw [size, fieldSize, ← Nat.add_assoc, ← layOut_eq_padded field]
  rfl

theorem pushDirective_eq {d : Directive} {v : Value} {sign content : List Char}
    (shows : show? d v = .ok (.field sign content)) (out : Output) :
    pushDirective d out v =
      if outputLimit < out.bytes.length +
          (Utf8.encodeChars (d.padded (sign ++ content))).length then .error tooLong
      else .ok (out.push (Utf8.encodeChars (d.padded (sign ++ content)))) := by
  rw [pushDirective, shows, ← out.size_eq_length_bytes]
  exact pushField_eq (isField_of_show? shows) out

/-- Unless a directive is refused for what it is to show, there is a bare field for it: what it shows
without a width. With a width, the field has as many characters as the width or the bare field,
whichever are more, and it is appended unless the output gets too long with it. -/
theorem fields_are_padded (d : Directive) (measured : d.specifier ≠ 'c') (v : Value) :
    (∃ reason, reason ≠ tooLong ∧
      ∀ width out, pushDirective (d.withWidth width) out v = .error reason) ∨
    ∃ bare : List Char, ∀ (width : Nat) (out : Output),
      let segment := (d.withWidth width).padded bare
      segment.length = max width bare.length ∧ (width = 0 → segment = bare) ∧
      pushDirective (d.withWidth width) out v =
        if outputLimit < out.bytes.length + (Utf8.encodeChars segment).length then .error tooLong
        else .ok (out.push (Utf8.encodeChars segment)) := by
  cases shows : show? d v with
  | error reason =>
    refine .inl ⟨reason, ne_tooLong_of_show? shows, fun width out => ?_⟩
    rw [pushDirective, show?_withWidth, shows]
  | ok shown =>
    cases shown with
    | rawByte b => exact absurd (specifier_of_show? shows) measured
    | field sign content =>
      refine .inr ⟨sign ++ content, fun width out => ⟨Directive.length_padded _ _, ?_, ?_⟩⟩
      · rintro rfl
        exact d.padded_withWidth_zero (sign ++ content)
      · have field : IsField (d.withWidth width) sign content := isField_of_show? shows
        rw [pushDirective, show?_withWidth, shows, ← out.size_eq_length_bytes]
        exact pushField_eq field out

/-- A number with its sign and with two-byte padding in front. -/
def dotted : Directive :=
  ⟨none, ⟨false, true, '·'⟩, 0, none, 'd'⟩

theorem fields_are_padded_dotted :
    dotted.specifier ≠ 'c' ∧ pushDirective dotted .empty (.integer 42) =
        .ok (Output.empty.push (Utf8.encodeChars ['+', '4', '2'])) ∧
      (dotted.withWidth 5).padded ['+', '4', '2'] = ['·', '·', '+', '4', '2'] ∧
      pushDirective (dotted.withWidth 5) .empty (.integer 42) =
        .ok (Output.empty.push (Utf8.encodeChars ['·', '·', '+', '4', '2'])) := by
  have measured : dotted.specifier ≠ 'c' := by decide
  have bareField : pushDirective (dotted.withWidth 0) .empty (.integer 42) =
      .ok (Output.empty.push (Utf8.encodeChars ['+', '4', '2'])) := by rfl
  have padded : (dotted.withWidth 5).padded ['+', '4', '2'] = ['·', '·', '+', '4', '2'] := by decide
  refine ⟨measured, bareField, padded, ?_⟩
  rcases fields_are_padded dotted measured (.integer 42) with ⟨reason, -, refused⟩ | ⟨bare, fields⟩
  · cases bareField.symm.trans (refused 0 .empty)
  · obtain ⟨-, unpadded, pushed⟩ := fields 0 .empty
    rw [unpadded rfl, bareField] at pushed
    split at pushed
    next => cases pushed
    next =>
      have same := congrArg Output.bytes (Except.ok.inj pushed)
      rw [Output.bytes_push, Output.bytes_push] at same
      obtain rfl := Utf8.encodeChars_injective (List.append_cancel_left same)
      obtain ⟨-, -, wide⟩ := fields 5 .empty
      rw [padded] at wide
      exact wide

end ConfigExpr.Template
