import ConfigExpr.Proofs.Template.Padding
import ConfigExpr.Proofs.Template.Refusals
import ConfigExpr.Proofs.Text.WrittenDigits

/-!
Fields of whole numbers that are padded in front, with blanks or zeros. Such a field is made of
blanks, a sign, zeros and the digits, and it always fits as long as its width does.
-/
namespace ConfigExpr.Template
open Text Scan Radix

structure Layout.Leading (layout : Layout) : Prop where
  right : layout.leftAlign = false
  padding : layout.padding = ' ' ∨ layout.padding = '0'

/-- The flags that leave the padding in front of the digits. -/
def leadingFlags : List Flag :=
  [.plus, .zeros, .blanks]

theorem Layout.Leading.apply {layout : Layout} {flag : Flag} (leading : layout.Leading)
    (known : flag ∈ leadingFlags) : (flag.apply layout).Leading := by
  cases flag with
  | plus => exact ⟨leading.right, leading.padding⟩
  | zeros => exact ⟨leading.right, .inr rfl⟩
  | blanks => exact ⟨leading.right, .inl rfl⟩
  | left | padding c => simp [leadingFlags] at known

theorem Conversion.leading_layout (c : Conversion)
    (known : ∀ flag ∈ c.flags, flag ∈ leadingFlags) : c.layout.Leading := by
  have folded (flags : List Flag) (known : ∀ flag ∈ flags, flag ∈ leadingFlags) {layout : Layout}
      (leading : layout.Leading) : (flags.foldl Flag.apply layout).Leading := by
    induction flags generalizing layout with
    | nil => exact leading
    | cons flag flags ih =>
      obtain ⟨first, others⟩ := List.forall_mem_cons.mp known
      exact ih others (leading.apply first)
  have unflagged : plain.Leading := ⟨rfl, .inl rfl⟩
  have flags := folded c.flags known unflagged
  rw [layout]
  split
  next => exact flags.apply (by decide)
  next => exact flags

section Fields
variable {d : Directive} {sign content bare : List Char} {c : Char}

theorem IsField.sign_short (field : IsField d sign content) : sign.length ≤ 1 := by
  rcases field.sign_eq with rfl | ⟨-, c, rfl, -⟩
  · exact Nat.zero_le 1
  · exact Nat.le_refl 1

theorem IsField.sign_ascii (field : IsField d sign content) : ∀ c ∈ sign, c.toNat < 0x80 := by
  rcases field.sign_eq with rfl | ⟨-, c, rfl, isSign⟩
  · exact fun c member => (List.not_mem_nil member).elim
  · have either : c = '+' ∨ c = '-' := by simpa [Template.isSign] using isSign
    rw [List.forall_mem_singleton]
    obtain rfl | rfl := either <;> decide

theorem padded_of_leading (field : IsField d sign content) (leading : d.layout.Leading) :
    ∃ blanks zeros, d.padded (sign ++ content) =
      List.replicate blanks ' ' ++ (sign ++ (List.replicate zeros '0' ++ content)) := by
  have right : ¬ d.layout.leftAlign = true := by
    rw [leading.right]
    decide
  rw [← layOut_eq_padded field, layOut, if_neg right]
  generalize d.width - (sign.length + content.length) = missing
  rcases leading.padding with blank | zero
  · refine ⟨missing, 0, ?_⟩
    rw [blank, if_neg (by decide), List.replicate_zero, List.nil_append, List.append_assoc]
  · refine ⟨0, missing, ?_⟩
    rw [zero, if_pos rfl, List.replicate_zero, List.nil_append, List.append_assoc]

theorem mem_padded (member : c ∈ d.padded bare) : c ∈ bare ∨ c = d.layout.padding := by
  rw [Directive.padded] at member
  rcases List.mem_append.mp member with front | rest
  · exact .inl (List.mem_of_mem_take front)
  rcases List.mem_append.mp rest with fill | back
  · exact .inr (List.eq_of_mem_replicate fill)
  · exact .inl (List.mem_of_mem_drop back)

theorem length_encodeChars_ascii {text : List Char} (ascii : ∀ c ∈ text, c.toNat < 0x80) :
    (Utf8.encodeChars text).length = text.length := by
  induction text with
  | nil => rfl
  | cons c text ih =>
    obtain ⟨first, others⟩ := List.forall_mem_cons.mp ascii
    have single : Utf8.encodeChar c = [UInt8.ofNat c.toNat] := if_pos first
    rw [Utf8.encodeChars, List.flatMap_cons, ← Utf8.encodeChars, single, List.length_append, ih others,
      List.length_singleton, List.length_cons, Nat.add_comm]

theorem padded_fits (leading : d.layout.Leading) (ascii : ∀ c ∈ bare, c.toNat < 0x80)
    (narrow : d.width ≤ outputLimit) (short : bare.length ≤ outputLimit) :
    (Utf8.encodeChars (d.padded bare)).length ≤ outputLimit := by
  have padding : d.layout.padding.toNat < 0x80 := by
    rcases leading.padding with blank | zero
    · rw [blank]
      decide
    · rw [zero]
      decide
  rw [length_encodeChars_ascii, Directive.length_padded]
  · exact max_le narrow short
  · intro c member
    rcases mem_padded member with inside | rfl
    · exact ascii c inside
    · exact padding

end Fields

def radixSpecifiers : List (Char × ℕ) :=
  [('b', 2), ('o', 8), ('x', 16), ('X', 16)]

section Integers
variable {d : Directive} {base : ℕ} (n : Int64)

theorem show?_decimal (decimal : d.specifier = 'd') : show? d (.integer n) =
    .ok (.field (integerSign d.layout n) (Numeral.ofNat n.toInt.natAbs)) := by
  rw [show?, decimal]
  rfl

theorem length_toDigits_le (wide : 2 ≤ base) {m : ℕ} (small : m < 2 ^ 64) :
    (Nat.toDigits base m).length ≤ 64 :=
  (Nat.length_toDigits_le_iff wide (by decide)).mpr
    (small.trans_le (Nat.pow_le_pow_left wide 64))

theorem show?_radix (known : (d.specifier, base) ∈ radixSpecifiers) :
    ∃ digits, show? d (.integer n) = .ok (.field [] digits) ∧ digits.length ≤ 64 ∧
      Spells base digits n.toUInt64.toNat := by
  have length {base : ℕ} (wide : 2 ≤ base) : (Nat.toDigits base n.toUInt64.toNat).length ≤ 64 :=
    length_toDigits_le wide n.toUInt64.toNat_lt
  have lower {base : ℕ} (wide : 2 ≤ base) (small : base ≤ 16)
      (shows : show? d (.integer n) = .ok (.field [] (Nat.toDigits base n.toUInt64.toNat))) :
      ∃ digits, show? d (.integer n) = .ok (.field [] digits) ∧ digits.length ≤ 64 ∧
        Spells base digits n.toUInt64.toNat :=
    ⟨_, shows, length wide, .toDigits wide small _⟩
  simp only [radixSpecifiers, List.mem_cons, Prod.mk.injEq, List.not_mem_nil, or_false] at known
  rcases known with ⟨b, rfl⟩ | ⟨o, rfl⟩ | ⟨x, rfl⟩ | ⟨upper, rfl⟩
  · exact lower (by decide) (by decide) (by rw [show?, b]; rfl)
  · exact lower (by decide) (by decide) (by rw [show?, o]; rfl)
  · exact lower (by decide) (by decide) (by rw [show?, x]; rfl)
  · refine ⟨(Nat.toDigits 16 n.toUInt64.toNat).map Char.toUpper, by rw [show?, upper]; rfl, ?_,
      (Spells.toDigits (by decide) (by decide) _).toUpper⟩
    rw [List.length_map]
    exact length (by decide)

end Integers

section Templates
variable {c : Conversion} {v : Value} {sign content : List Char}

theorem renderBytes_conversion (next : c.argument = none) (noPercent : c.specifier ≠ '%')
    (v : Value) (values : List Value) :
    renderBytes (String.ofList (templateText [.conversion c])) (v :: values) =
      (pushDirective c.directive .empty v).map Output.bytes := by
  have takes : c.directive.argument = none := by rw [Conversion.directive, next, Option.map_none]
  rw [renderBytes_templateText, List.map_singleton, piece_conversion noPercent,
    List.foldlM_cons]
  simp only [step, takes, List.getElem?_cons_zero]
  cases pushDirective c.directive .empty v with
  | ok out | error reason => rfl

theorem ofBytes_encodeChars (text : List Char) :
    ofBytes (Utf8.encodeChars text) = .string (String.ofList text) := by
  rw [ofBytes, Utf8.decode?_encodeChars]

theorem format_conversion (name : String) (next : c.argument = none)
    (shows : show? c.directive v = .ok (.field sign content))
    (fits : (Utf8.encodeChars (c.directive.padded (sign ++ content))).length ≤ outputLimit) :
    format name (String.ofList (templateText [.conversion c])) [v] =
      .ok (.string (String.ofList (c.directive.padded (sign ++ content)))) := by
  have noPercent : c.specifier ≠ '%' := by
    intro percent
    rw [show?, show c.directive.specifier = '%' from percent] at shows
    cases shows
  have nothing : Output.empty.bytes = [] := rfl
  have pushed := pushDirective_eq shows .empty
  rw [nothing, List.length_nil, Nat.zero_add, if_neg (Nat.not_lt.mpr fits)] at pushed
  rw [format, renderBytes_conversion next noPercent, pushed, Except.map, Output.bytes_push, nothing,
    List.nil_append]
  exact congrArg Except.ok (ofBytes_encodeChars _)

theorem format_digits {base m : ℕ} (name : String) (next : c.argument = none)
    (leading : c.layout.Leading) (narrow : c.directive.width ≤ outputLimit)
    (shows : show? c.directive v = .ok (.field sign content)) (spells : Spells base content m)
    (short : content.length ≤ 64) :
    ∃ blanks zeros, format name (String.ofList (templateText [.conversion c])) [v] =
      .ok (.string (String.ofList
        (List.replicate blanks ' ' ++ (sign ++ (List.replicate zeros '0' ++ content))))) := by
  have field : IsField c.directive sign content := isField_of_show? shows
  have ascii : ∀ c ∈ sign ++ content, c.toNat < 0x80 :=
    List.forall_mem_append.mpr ⟨field.sign_ascii, fun c member => spells.ascii c member⟩
  have length : (sign ++ content).length ≤ outputLimit := by
    have bound : 65 ≤ outputLimit := by decide
    have := field.sign_short
    rw [List.length_append]
    omega
  obtain ⟨blanks, zeros, padded⟩ := padded_of_leading field leading
  refine ⟨blanks, zeros, ?_⟩
  rw [format_conversion name next shows (padded_fits leading ascii narrow length), padded]

def numberTemplate (flags : List Flag) (width : Option ℕ) (specifier : Char) : String :=
  String.ofList ('%' :: (flags.flatMap Flag.text ++ (width.elim [] Numeral.ofNat ++ [specifier])))

def Count.ofNat (n : ℕ) (within : n ≤ numberLimit) : Count where
  digits := Numeral.ofNat n
  filled := Numeral.ofNat_ne_nil n
  ascii := fun _ => Numeral.isAsciiDigit_of_mem_ofNat
  within := by rwa [Numeral.decimalValue_ofNat]

theorem exists_conversion (flags : List Flag) {width : Option ℕ} (narrow : width.getD 0 ≤ numberLimit)
    {specifier : Char} (known : specifier ∈ specifiers) :
    ∃ c : Conversion, c.argument = none ∧ c.flags = flags ∧ c.specifier = specifier ∧
      c.directive.width = width.getD 0 ∧
      String.ofList (templateText [.conversion c]) = numberTemplate flags width specifier := by
  have text (c : Conversion) : templateText [.conversion c] = '%' :: c.text := List.append_nil _
  cases width with
  | none =>
    refine ⟨⟨none, flags, none, none, specifier, nofun, known⟩, rfl, rfl, rfl, rfl, ?_⟩
    rw [text]
    rfl
  | some width =>
    let count := Count.ofNat width narrow
    have value : count.value = width := Numeral.decimalValue_ofNat width
    refine ⟨⟨none, flags, some count, none, specifier, nofun, known⟩, rfl, rfl, rfl, value, ?_⟩
    rw [text]
    rfl

theorem format_numberTemplate (name : String) {flags : List Flag}
    (leading : ∀ flag ∈ flags, flag ∈ leadingFlags) {width : Option ℕ}
    (narrow : width.getD 0 ≤ outputLimit) {specifier : Char} (known : specifier ∈ specifiers)
    (v : Value) :
    ∃ d : Directive, d.specifier = specifier ∧
      ∀ {base m : ℕ} {sign content : List Char}, show? d v = .ok (.field sign content) →
        Spells base content m → content.length ≤ 64 →
        ∃ blanks zeros, format name (numberTemplate flags width specifier) [v] =
          .ok (.string (String.ofList
            (List.replicate blanks ' ' ++ (sign ++ (List.replicate zeros '0' ++ content))))) := by
  have readable : outputLimit ≤ numberLimit := by decide
  obtain ⟨c, next, rfl, rfl, wide, text⟩ := exists_conversion flags (narrow.trans readable) known
  refine ⟨c.directive, rfl, fun shows spells short => ?_⟩
  rw [← text]
  exact format_digits name next (c.leading_layout leading) (wide.trans_le narrow) shows spells short

end Templates

end ConfigExpr.Template
