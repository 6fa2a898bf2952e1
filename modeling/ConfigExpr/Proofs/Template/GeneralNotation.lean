import ConfigExpr.Proofs.Number.DecimalTexts
import ConfigExpr.Proofs.Number.LogarithmFloors
import ConfigExpr.Template.Render

/-!
General notation of floats. It shows a number rounded to significant digits, without zeros that end a
fraction. The notation is chosen by the exponent of the number before it is rounded, so a number that
is rounded up to the first exponent of a notation is shown in the other one.
-/
namespace ConfigExpr.Template
open Text DecimalText

def exponentMark (specifier : Char) : Char :=
  if specifier = 'G' then 'E' else 'e'

theorem exponentMark_isMark (specifier : Char) :
    exponentMark specifier = 'e' ∨ exponentMark specifier = 'E' := by
  rw [exponentMark]
  split
  next => exact .inr rfl
  next => exact .inl rfl

/-- Exponents that need no exponent part. -/
def IsPlain (count : ℕ) (exponent : ℤ) : Prop :=
  -4 ≤ exponent ∧ exponent < count

instance (count : ℕ) (exponent : ℤ) : Decidable (IsPlain count exponent) :=
  inferInstanceAs (Decidable (_ ∧ _))

section
variable (x : Binary64) (d : Decimal) (count : ℕ) (specifier : Char)

/-- What stands behind the digits of a number with this exponent. -/
def exponentPart (exponent : ℤ) : Option ExponentPart :=
  if IsPlain count exponent then none
  else some (.ofInt (exponentMark specifier) (exponentMark_isMark specifier) exponent)

/-- Decimal places down to the last significant digit of a number that leads at the exponent. -/
def plainLiteral (exponent : ℤ) : DecimalLiteral :=
  trimmed (x.toPlaces (count - 1 - exponent).toNat) (count - 1 - exponent).toNat

def scaledLiteral : DecimalLiteral :=
  (trimmed d.digits (count - 1)).withExponent
    (.ofInt (exponentMark specifier) (exponentMark_isMark specifier) (d.leading count))

/-- The notation follows the exponent that was picked, also if the digits have another one. -/
def generalLiteral (picked : ℤ) : DecimalLiteral :=
  if IsPlain count picked then plainLiteral x count picked else scaledLiteral d count specifier

end

section
variable {x : Binary64} {d : Decimal} {count : ℕ}

theorem general_eq (finite : x.isFinite = true) (nonzero : x.isZero = false)
    (rounds : d.Rounds x.magnitude count) (specifier : Char) :
    general x count (exponentMark specifier) =
      (generalLiteral x d count specifier x.log10.floor).text := by
  have some := rounds.width.count_pos
  have all : max count 1 = count := Nat.max_eq_left some
  rw [general, nonzero, Binary64.isInfinite_eq_false finite, Binary64.isNaN_eq_false finite, all,
    generalLiteral]
  simp only [Bool.false_eq_true, if_false]
  generalize x.log10.floor = picked
  have scaled_iff : (picked < -4 || (count : ℤ) ≤ picked) = true ↔ ¬ IsPlain count picked := by
    rw [IsPlain, Bool.or_eq_true, decide_eq_true_eq, decide_eq_true_eq]
    omega
  by_cases plain : IsPlain count picked
  · rw [if_neg fun scaled => scaled_iff.mp scaled plain, if_pos plain, plainLiteral, text_trimmed,
      fixed, if_pos finite]
  · obtain ⟨places, rfl⟩ := Nat.exists_eq_add_one_of_ne_zero some.ne'
    rw [if_pos (scaled_iff.mpr plain), if_neg plain, scaledLiteral, Nat.add_sub_cancel,
      scientific_eq finite nonzero rounds, DecimalLiteral.text_withExponent rfl, text_trimmed,
      ExponentPart.text_ofInt, exponentText]

theorem plainLiteral_spec {picked : ℤ} (rounds : d.Rounds x.magnitude count)
    (first : LeadsAt x.magnitude picked ∨ d.leading count = picked) (small : picked < count) :
    (plainLiteral x count picked).magnitude = d.value ∧
      (d.leading count < count → (plainLiteral x count picked).digits < 10 ^ count) := by
  have some := rounds.width.count_pos
  obtain ⟨places, isPlaces⟩ : ∃ places : ℕ, (places : ℤ) = count - 1 - picked :=
    ⟨(count - 1 - picked).toNat, by omega⟩
  have shown : plainLiteral x count picked = trimmed (x.toPlaces places) places := by
    rw [plainLiteral, ← isPlaces, Int.toNat_natCast]
  rw [shown]
  rcases first with atNumber | atDecimal
  · obtain ⟨units, nearest, rfl, most⟩ := rounds.exists_units atNumber
    have last : picked + 1 - count = -(places : ℤ) := by omega
    rw [last] at nearest rounds ⊢
    obtain ⟨low, -⟩ := Decimal.scaled_bounds atNumber some
    rw [last] at low
    obtain ⟨-, value⟩ := Decimal.ofRounded_spec (-(places : ℤ)) (nearest.le_of_le low) most some
    have same : x.toPlaces places = units := (x.inUnits_nearest (-places)).unique nearest
    rw [same, magnitude_trimmed, value]
    refine ⟨rfl, fun leads => ?_⟩
    rcases most.lt_or_eq with less | carried
    · exact (digits_trimmed_le units places).trans_lt less
    · -- The carry has brought a zero, which is behind the point and is removed.
      rw [Decimal.ofRounded, if_pos carried, Decimal.leading] at leads
      dsimp only at leads
      obtain ⟨fewer, rfl⟩ : ∃ fewer, places = fewer + 1 := ⟨places - 1, by omega⟩
      have units_eq : units = 10 ^ (count - 1) * 10 := by
        rw [carried, ← Nat.pow_succ, Nat.succ_eq_add_one, Nat.sub_add_cancel some]
      rw [units_eq, trimmed_mul_ten (Nat.pow_pos (by decide))]
      exact (digits_trimmed_le _ _).trans_lt (Nat.pow_lt_pow_right (by decide) (by omega))
  · have last : d.exponent = -(places : ℤ) := by
      rw [Decimal.leading] at atDecimal
      omega
    rw [Binary64.toPlaces_eq_digits rounds last, magnitude_fixed last]
    exact ⟨rfl, fun _ => (digits_trimmed_le _ _).trans_lt rounds.width.2⟩

theorem scaledLiteral_spec (rounds : d.Rounds x.magnitude count) (specifier : Char) :
    (scaledLiteral d count specifier).magnitude = d.value ∧
      (scaledLiteral d count specifier).digits < 10 ^ count := by
  obtain ⟨places, rfl⟩ := Nat.exists_eq_add_one_of_ne_zero rounds.width.count_pos.ne'
  exact ⟨magnitude_scientific d places _ _, (digits_trimmed_le _ _).trans_lt rounds.width.2⟩

theorem sign_generalLiteral (x : Binary64) (d : Decimal) (count : ℕ) (specifier : Char) (picked : ℤ) :
    (generalLiteral x d count specifier picked).sign = .absent := by
  rw [generalLiteral]
  split <;> rfl

theorem trimmed_generalLiteral (x : Binary64) (d : Decimal) (count : ℕ) (specifier : Char)
    (picked : ℤ) : (generalLiteral x d count specifier picked).Trimmed := by
  rw [generalLiteral]
  split
  next => exact trimmed_trimmed _ _
  next => exact trimmed_trimmed d.digits (count - 1)

theorem length_whole_generalLiteral (rounds : d.Rounds x.magnitude count) (specifier : Char)
    (picked : ℤ) : (generalLiteral x d count specifier picked).exponent ≠ none →
      (generalLiteral x d count specifier picked).whole.length = 1 := by
  obtain ⟨places, rfl⟩ := Nat.exists_eq_add_one_of_ne_zero rounds.width.count_pos.ne'
  rw [generalLiteral]
  split
  next => exact fun scaled => absurd rfl scaled
  next => exact fun _ => length_wholeOf d.digits places rounds.width.2

/-- Rounding takes a number up to the first exponent of the other notation. -/
def CrossesNotation (q : ℚ) (count : ℕ) (exponent : ℤ) : Prop :=
  q < 10 ^ exponent ∧ (exponent = -4 ∨ exponent = count)

/-- A number that leads with nines and is so close to the power of ten behind them that its logarithm
may be rounded to the exponent of that power. -/
def NearNextPower (q : ℚ) (exponent : ℤ) : Prop :=
  10 ^ (exponent + 1) * (1 - 2 ^ (-43 : ℤ)) ≤ q

theorem count_of_nearNextPower {q : ℚ} {lead : ℤ} (rounds : d.Rounds q count) (first : LeadsAt q lead)
    (kept : d.leading count = lead) (near : NearNextPower q lead) : 13 ≤ count := by
  obtain ⟨units, nearest, rfl, most⟩ := rounds.exists_units first
  have fewer : units < 10 ^ count := by
    refine most.lt_of_ne fun carried => ?_
    rw [Decimal.ofRounded, if_pos carried, Decimal.leading] at kept
    dsimp only at kept
    omega
  have less : (units : ℚ) + 1 ≤ 10 ^ count := by exact_mod_cast fewer
  have unit : (0 : ℚ) < 10 ^ (lead + 1 - count) := zpow_pos (by norm_num) _
  have below := nearest.below
  rw [div_le_iff₀ unit] at below
  have exponent : lead + 1 = (count : ℤ) + (lead + 1 - count) := by ring
  rw [NearNextPower, exponent, zpow_add₀ (by norm_num), zpow_natCast, mul_right_comm] at near
  have scaled := le_of_mul_le_mul_right (near.trans below) unit
  by_contra small
  have few : (10 : ℚ) ^ count ≤ 10 ^ 12 := pow_le_pow_right₀ (by norm_num) (by omega)
  have tiny : (10 : ℚ) ^ count * 2 ^ (-43 : ℤ) ≤ 10 ^ 12 * 2 ^ (-43 : ℤ) :=
    mul_le_mul_of_nonneg_right few (by positivity)
  have quarter : (10 : ℚ) ^ 12 * 2 ^ (-43 : ℤ) < 1 / 4 := by norm_num
  rw [mul_sub, mul_one] at scaled
  linarith [tiny.trans_lt quarter]

/-- So close below a power of ten that the place of its last digits depends on the exponent that is
picked. -/
def PickMisplaces (q : ℚ) (count : ℕ) (exponent : ℤ) : Prop :=
  13 ≤ count ∧ -5 ≤ exponent ∧ exponent < count ∧ NearNextPower q exponent

variable (specifier : Char)

theorem generalLiteral_spec {picked : ℤ} (rounds : d.Rounds x.magnitude count)
    (first : LeadsAt x.magnitude picked ∨ d.leading count = picked) :
    (generalLiteral x d count specifier picked).magnitude = d.value ∧
      (d.leading count = picked ∨ d.leading count ≠ count →
        (generalLiteral x d count specifier picked).digits < 10 ^ count) ∧
      (generalLiteral x d count specifier picked).exponent =
        if IsPlain count picked then none
        else some (.ofInt (exponentMark specifier) (exponentMark_isMark specifier) (d.leading count)) := by
  rw [generalLiteral]
  split
  next plain =>
    obtain ⟨value, digits⟩ := plainLiteral_spec rounds first plain.2
    refine ⟨value, fun fits => digits ?_, rfl⟩
    have small := plain.2
    rcases first with atNumber | atDecimal
    · rcases rounds.leading_eq_or atNumber with kept | ⟨carried, -⟩ <;> omega
    · omega
  next =>
    obtain ⟨value, digits⟩ := scaledLiteral_spec rounds specifier
    exact ⟨value, fun _ => digits, rfl⟩

section
variable (finite : x.isFinite = true) (nonzero : x.isZero = false)
  (rounds : d.Rounds x.magnitude count)
include finite nonzero rounds

theorem generalLiteral_floor (clear : ¬ PickMisplaces x.magnitude count (d.leading count)) :
    ∃ picked, generalLiteral x d count specifier x.log10.floor =
        generalLiteral x d count specifier picked ∧
      (picked = d.leading count ∨
        picked = d.leading count - 1 ∧ LeadsAt x.magnitude (d.leading count - 1)) := by
  have first := Binary64.leadsAt_leadingExponent nonzero
  rcases rounds.leading_eq_or first with kept | ⟨carried, -⟩
  · refine ⟨d.leading count, ?_, .inl rfl⟩
    rcases Binary64.log10_floor finite nonzero first with exact | ⟨above, near⟩
    · rw [exact, kept]
    · have many := count_of_nearNextPower rounds first kept near
      rw [kept] at clear ⊢
      have outside : x.leadingExponent < -5 ∨ count ≤ x.leadingExponent := by
        by_contra inside
        exact clear ⟨many, by omega, by omega, near⟩
      have notPlain : ¬ IsPlain count x.leadingExponent := by
        rw [IsPlain]
        omega
      have nextNotPlain : ¬ IsPlain count (x.leadingExponent + 1) := by
        rw [IsPlain]
        omega
      rw [above, generalLiteral, generalLiteral, if_neg notPlain, if_neg nextNotPlain]
  · rcases Binary64.log10_floor finite nonzero first with exact | ⟨above, -⟩
    · refine ⟨x.leadingExponent, by rw [exact], .inr ?_⟩
      rw [carried, Int.add_sub_cancel]
      exact ⟨rfl, first⟩
    · exact ⟨d.leading count, by rw [above, carried], .inl rfl⟩

theorem floor_of_below (below : x.magnitude < 10 ^ d.leading count)
    (far : ¬ NearNextPower x.magnitude (d.leading count - 1)) :
    x.log10.floor = d.leading count - 1 ∧ LeadsAt x.magnitude (d.leading count - 1) := by
  have first := Binary64.leadsAt_leadingExponent nonzero
  have carried : d.leading count = x.leadingExponent + 1 := by
    refine (rounds.leading_eq_or first).elim (fun kept => ?_) fun carried => carried.1
    rw [kept] at below
    exact absurd first.1 below.not_ge
  rw [carried, Int.add_sub_cancel] at far ⊢
  refine ⟨(Binary64.log10_floor finite nonzero first).resolve_right fun above => far above.2, first⟩

end

theorem isPlain_of_picked {exponent : ℤ} (clear : ¬ CrossesNotation x.magnitude count exponent)
    (first : LeadsAt x.magnitude (exponent - 1)) :
    exponent ≠ count ∧ (IsPlain count (exponent - 1) ↔ IsPlain count exponent) := by
  have below : x.magnitude < 10 ^ exponent := by
    have high := first.2
    rwa [sub_add_cancel] at high
  have notLow : exponent ≠ -4 := fun low => clear ⟨below, .inl low⟩
  have notHigh : exponent ≠ count := fun high => clear ⟨below, .inr high⟩
  rw [IsPlain, IsPlain]
  omega

end

theorem show?_general {d : Directive} {v : Value} (specifier : d.specifier = 'g' ∨ d.specifier = 'G') :
    show? d v = .ok (.field (floatSign d.layout (floatOperand v))
      (general (floatOperand v).abs (max 1 (min (d.precision.getD 6) 53))
        (exponentMark d.specifier))) := by
  have same (x : Binary64) (places : ℕ) (mark : Char) :
      general x (max 1 places) mark = general x places mark := by
    have atLeast : max (max 1 places) 1 = max places 1 := by omega
    rw [general, general, atLeast]
  rw [same, exponentMark]
  rcases specifier with small | large
  · rw [show?, small]
    simp [floatContent, small, defaultPrecision, maxPrecision]
  · rw [show?, large]
    simp [floatContent, large, defaultPrecision, maxPrecision]

/-- `g` and `G` show a finite number other than zero rounded to so many significant digits, without zeros
that end the fraction. The digits are written out for exponents from -4 to the one below the count and
stand in front of an exponent otherwise; but where rounding takes the number up to the first exponent of a
notation, the other one is used. The digits are others only for at least 13 of them, next to a power of
ten. -/
theorem general_shows_rounded_value {d : Directive} {v : Value}
    (specifier : d.specifier = 'g' ∨ d.specifier = 'G')
    (finite : (floatOperand v).isFinite = true) (nonzero : (floatOperand v).isZero = false) :
    let x := floatOperand v
    let count := max 1 (min (d.precision.getD 6) 53)
    ∃ (rounded : Decimal) (l : DecimalLiteral), rounded.Rounds x.magnitude count ∧
      show? d v = .ok (.field (floatSign d.layout x) l.text) ∧ l.sign = .absent ∧ l.Trimmed ∧
      (l.exponent ≠ none → l.whole.length = 1) ∧
      (¬ PickMisplaces x.magnitude count (rounded.leading count) →
        l.magnitude = rounded.value ∧
        (¬ CrossesNotation x.magnitude count (rounded.leading count) →
          l.exponent = exponentPart count d.specifier (rounded.leading count) ∧
            l.digits < 10 ^ count)) ∧
      (CrossesNotation x.magnitude count (rounded.leading count) →
        ¬ NearNextPower x.magnitude (rounded.leading count - 1) →
        (l.exponent = none ↔ ¬ IsPlain count (rounded.leading count))) := by
  intro x count
  have some : 0 < count := Nat.le_max_left 1 _
  have finiteAbs : x.abs.isFinite = true := x.isFinite_abs.trans finite
  have nonzeroAbs : x.abs.isZero = false := x.isZero_abs.trans nonzero
  have rounds := Binary64.toSignificant_rounds nonzeroAbs some
  generalize x.abs.toSignificant count = rounded at rounds
  rw [← x.magnitude_abs]
  refine ⟨rounded, generalLiteral x.abs rounded count d.specifier x.abs.log10.floor, rounds, ?_,
    sign_generalLiteral _ _ _ _ _, trimmed_generalLiteral _ _ _ _ _,
    length_whole_generalLiteral rounds _ _, fun clear => ?_, fun crosses far => ?_⟩
  · rw [show?_general specifier, general_eq finiteAbs nonzeroAbs rounds]
  · obtain ⟨picked, same, pick⟩ :=
      generalLiteral_floor d.specifier finiteAbs nonzeroAbs rounds clear
    rw [same]
    rcases pick with rfl | ⟨rfl, first⟩
    · obtain ⟨value, digits, exponent⟩ := generalLiteral_spec d.specifier rounds (.inr rfl)
      exact ⟨value, fun _ => ⟨exponent, digits (.inl rfl)⟩⟩
    · obtain ⟨value, digits, exponent⟩ := generalLiteral_spec d.specifier rounds (.inl first)
      refine ⟨value, fun stays => ?_⟩
      obtain ⟨notHigh, plain_iff⟩ := isPlain_of_picked stays first
      refine ⟨?_, digits (.inr notHigh)⟩
      rw [exponent, exponentPart]
      exact if_congr plain_iff rfl rfl
  · obtain ⟨floor, first⟩ := floor_of_below finiteAbs nonzeroAbs rounds crosses.1 far
    obtain ⟨-, -, exponent⟩ := generalLiteral_spec d.specifier rounds (.inl first)
    have other : IsPlain count (rounded.leading count - 1) ↔ ¬ IsPlain count (rounded.leading count) := by
      have edge := crosses.2
      rw [IsPlain, IsPlain]
      omega
    rw [floor, exponent, ← other, ite_eq_left_iff]
    exact ⟨fun none => by_contra fun scaled => Option.some_ne_none _ (none scaled),
      fun plain scaled => absurd plain scaled⟩

theorem general_shows_rounded_value_scaled :
    let d : Directive := ⟨none, plain, 0, none, 'G'⟩
    let v : Value := .float ⟨0x419D6F3454000000⟩
    (d.specifier = 'g' ∨ d.specifier = 'G') ∧ (floatOperand v).isFinite = true ∧
      (floatOperand v).isZero = false ∧ show? d v = .ok (.field [] "1.23457E+8".toList) ∧
      ∃ (rounded : Decimal) (l : DecimalLiteral), rounded.Rounds (floatOperand v).magnitude 6 ∧
        l.text = "1.23457E+8".toList ∧ l.magnitude = rounded.value := by
  intro d v
  have specifier : d.specifier = 'g' ∨ d.specifier = 'G' := .inr rfl
  have finite : (floatOperand v).isFinite = true := by decide
  have nonzero : (floatOperand v).isZero = false := by decide
  have content : floatContent d (floatOperand v).abs = "1.23457E+8".toList := by decide +kernel
  have shows : show? d v = .ok (.field [] "1.23457E+8".toList) := by
    rw [← content]
    rfl
  obtain ⟨rounded, l, rounds, shown, -, -, -, spec, -⟩ :=
    general_shows_rounded_value specifier finite nonzero
  rw [shows] at shown
  have text : "1.23457E+8".toList = l.text := by
    injection shown with same
    injection same
  exact ⟨specifier, finite, nonzero, shows, rounded, l, rounds, text.symm,
    (spec fun misplaced => absurd misplaced.1 (by decide)).1⟩

/-- Six digits of this number are a one and zeros, with an exponent as large as their count, but they
are written out. -/
theorem rounded_to_million_is_written_out :
    let x : Binary64 := ⟨0x412E847F80000000⟩
    x.magnitude = 999999.75 ∧
      (∃ d : Decimal, d.Rounds x.magnitude 6 ∧ d.value = 10 ^ 6 ∧ d.leading 6 = 6) ∧
      format "sprintf" "%g" [.float x] = .ok (.string "1000000") := by
  intro x
  have rounds : (x.toSignificant 6).Rounds x.magnitude 6 :=
    Binary64.toSignificant_rounds (by decide) (by decide)
  have significant : x.toSignificant 6 = ⟨100000, 1⟩ := by decide +kernel
  have rendered : renderBytes "%g" [.float x] = .ok [49, 48, 48, 48, 48, 48, 48] := by decide +kernel
  rw [significant] at rounds
  refine ⟨?_, ⟨_, rounds, ?_, by decide⟩, ?_⟩
  · have significand : x.significand = 3999999 * 2 ^ 31 := by decide
    have scale : x.scale = -33 := by decide
    rw [Binary64.magnitude_eq, significand, scale]
    norm_num
  · norm_num [Decimal.value]
  · rw [format, rendered]
    rfl

-- The logarithm of 999999999999999.875 is rounded to fifteen, and of seventeen digits one is lost.
example : general ⟨0x430C6BF52633FFFF⟩ 17 'e' = "999999999999999.9".toList := by decide +kernel

end ConfigExpr.Template
