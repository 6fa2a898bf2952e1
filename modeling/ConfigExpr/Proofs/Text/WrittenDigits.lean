import ConfigExpr.Proofs.Text.RadixNumerals

/-!
Numbers written in a base and read back. Digits are read one by one, so neither their case nor zeros
in front of them matter, and no text of digits alone starts with the mark of its base.
-/
namespace ConfigExpr.Text.Radix
open Scan

section Digits
variable {base digit : ℕ} {c : Char}

theorem digitIn?_digitChar (small : base ≤ 16) (known : digit < base) :
    digitIn? base (Nat.digitChar digit) = some digit := by
  have each : ∀ base ≤ 16, ∀ digit < base, digitIn? base (Nat.digitChar digit) = some digit := by
    decide
  exact each base small digit known

theorem digitIn?_zero (positive : 0 < base) : digitIn? base '0' = some 0 :=
  if_pos positive

theorem toNat_toUpper (c : Char) :
    c.toUpper.toNat = if 97 ≤ c.toNat ∧ c.toNat ≤ 122 then c.toNat - 32 else c.toNat := by
  unfold Char.toUpper
  split
  next lower =>
    have low : 97 ≤ c.val.toNat := lower.1
    have sum : (c.val + ('A'.val - 'a'.val)).toNat = (c.val.toNat + (2 ^ 32 - 32)) % 2 ^ 32 :=
      UInt32.toNat_add _ _
    rw [if_pos (show 97 ≤ c.toNat ∧ c.toNat ≤ 122 from lower)]
    change (c.val + ('A'.val - 'a'.val)).toNat = c.val.toNat - 32
    have := c.val.toNat_lt
    omega
  next other => exact (if_neg other).symm

theorem digitIn?_toUpper (base : ℕ) (c : Char) : digitIn? base c.toUpper = digitIn? base c := by
  simp only [digitIn?, toNat_toUpper, Bool.and_eq_true, decide_eq_true_eq]
  split
  all_goals grind

theorem toNat_bounds_of_digitIn? (known : (digitIn? base c).isSome = true) :
    48 ≤ c.toNat ∧ c.toNat ≤ 122 := by
  by_contra other
  have noDigit : ¬ (48 ≤ c.toNat ∧ c.toNat ≤ 57) := by omega
  have noLower : ¬ (97 ≤ c.toNat ∧ c.toNat ≤ 122) := by omega
  have noUpper : ¬ (65 ≤ c.toNat ∧ c.toNat ≤ 90) := by omega
  simp only [digitIn?, Bool.and_eq_true, decide_eq_true_eq, if_neg noDigit, if_neg noLower,
    if_neg noUpper, lt_irrefl, if_false] at known
  cases known

theorem isBlank_of_digitIn? (known : (digitIn? base c).isSome = true) : isBlank c = false := by
  obtain ⟨low, high⟩ := toNat_bounds_of_digitIn? known
  exact isBlank_of_bounds low high

theorem noSign_of_digitIn? (known : (digitIn? base c).isSome = true) :
    ['+', '-'].contains c = false :=
  noSign_of_le (toNat_bounds_of_digitIn? known).1

end Digits

structure Spells (base : ℕ) (text : List Char) (n : ℕ) : Prop where
  known : ∀ c ∈ text, (digitIn? base c).isSome = true
  value : ofDigits base (text.filterMap (digitIn? base)) = n

namespace Spells
variable {base n digit : ℕ} {text blanks : List Char}

theorem singleton {c : Char} (read : digitIn? base c = some digit) : Spells base [c] digit := by
  refine ⟨List.forall_mem_singleton.mpr (Option.isSome_of_eq_some read), ?_⟩
  rw [List.filterMap_cons_some read, List.filterMap_nil, ofDigits, List.foldl_cons, List.foldl_nil,
    Nat.zero_mul, Nat.zero_add]

theorem append {high low : List Char} {m : ℕ} (left : Spells base high m)
    (right : Spells base low n) : Spells base (high ++ low) (m * base ^ low.length + n) := by
  refine ⟨List.forall_mem_append.mpr ⟨left.known, right.known⟩, ?_⟩
  have length : (low.filterMap (digitIn? base)).length = low.length :=
    List.filterMap_length_eq_length.mpr right.known
  rw [List.filterMap_append, ofDigits_append, left.value, right.value, length]

theorem ascii (spells : Spells base text n) : ∀ c ∈ text, c.toNat < 0x80 := by
  intro c member
  obtain ⟨-, high⟩ := toNat_bounds_of_digitIn? (spells.known c member)
  omega

theorem toDigits (wide : 2 ≤ base) (small : base ≤ 16) (n : ℕ) :
    Spells base (Nat.toDigits base n) n := by
  induction n using Nat.strongRecOn with
  | ind n ih =>
    by_cases last : n < base
    · rw [Nat.toDigits_of_lt_base last]
      exact .singleton (digitIn?_digitChar small last)
    · have more : base ≤ n := Nat.le_of_not_lt last
      have front := ih (n / base) (Nat.div_lt_self (by omega) wide)
      have digit : Spells base [Nat.digitChar (n % base)] (n % base) :=
        .singleton (digitIn?_digitChar small (Nat.mod_lt _ (by omega)))
      have both := front.append digit
      rw [List.length_singleton, Nat.pow_one, Nat.div_add_mod'] at both
      rwa [Nat.toDigits_of_base_le wide more]

theorem toUpper (spells : Spells base text n) : Spells base (text.map Char.toUpper) n := by
  have same : digitIn? base ∘ Char.toUpper = digitIn? base := funext (digitIn?_toUpper base)
  refine ⟨List.forall_mem_map.mpr fun c member => ?_, ?_⟩
  · rw [digitIn?_toUpper]
    exact spells.known c member
  · rw [List.filterMap_map, same, spells.value]

theorem behind_zeros (spells : Spells base text n) (positive : 0 < base) (zeros : ℕ) :
    Spells base (List.replicate zeros '0' ++ text) n := by
  have zero : Spells base ['0'] 0 := .singleton (digitIn?_zero positive)
  induction zeros with
  | zero => exact spells
  | succ zeros ih =>
    have both := zero.append ih
    rwa [Nat.zero_mul, Nat.zero_add] at both

theorem marked (spells : Spells base text n) (given : base ≠ 0) : Marked base [] base text := by
  refine .absent given fun c mark starts => ?_
  have each : ∀ m ∈ markLetters, digitIn? m.2 m.1 = none := by decide
  have member : c ∈ text := starts.subset (List.mem_cons_of_mem _ List.mem_cons_self)
  have digit := spells.known c member
  rw [each _ mark] at digit
  cases digit

def numeral (spells : Spells base text n) (given : base ≠ 0)
    (blank : ∀ c ∈ blanks, isBlank c = true) : RadixNumeral base where
  blanks := blanks
  sign := .absent
  mark := []
  used := base
  digits := text
  rest := []
  blank := blank
  starts := stops_of_forall fun c member =>
    isBlank_of_digitIn? (spells.known c (List.append_nil text ▸ member))
  unsigned := fun _ => stops_of_forall fun c member =>
    noSign_of_digitIn? (spells.known c (List.append_nil text ▸ member))
  marked := (List.append_nil text).symm ▸ spells.marked given
  known := spells.known
  ends := stops_nil

theorem parse_eq (spells : Spells base text n) (given : base ≠ 0) (small : base ≤ 36)
    (blank : ∀ c ∈ blanks, isBlank c = true) :
    parse base (String.ofList (blanks ++ text)) =
      if n < 2 ^ 63 then Int64.ofNat n else Int64.maxValue := by
  have magnitude : (spells.numeral given blank).magnitude = n := spells.value
  have whole : (spells.numeral given blank).text = blanks ++ text :=
    congrArg (blanks ++ ·) (List.append_nil text)
  have read := (spells.numeral given blank).parse_text small
  rw [whole, magnitude] at read
  rw [read]
  split <;> rfl

end Spells

end ConfigExpr.Text.Radix
