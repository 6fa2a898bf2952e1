import ConfigExpr.Text.Numeral

/-!
Decimal numerals read back. A numeral of a natural number consists of ASCII digits, its value is the
number, and padding it with zeros to a width that it does not exceed gives exactly that width.
-/
namespace ConfigExpr.Numeral
open Text

theorem isAsciiDigit_of_mem_ofNat {n : Nat} {c : Char} (member : c ∈ ofNat n) :
    isAsciiDigit c = true := by
  have digit : c.isDigit = true := Nat.isDigit_of_mem_toDigits (by decide) (by decide) member
  simp only [Char.isDigit, Bool.and_eq_true, decide_eq_true_eq] at digit
  simp only [isAsciiDigit, Bool.and_eq_true, decide_eq_true_eq]
  exact digit

theorem isAsciiDigit_of_mem_padded {width n : Nat} {c : Char} (member : c ∈ padded width n) :
    isAsciiDigit c = true := by
  rcases List.mem_append.mp member with zero | digit
  · rw [List.eq_of_mem_replicate zero]
    rfl
  · exact isAsciiDigit_of_mem_ofNat digit

theorem decimalValue_eq_ofDigitChars (digits : List Char) :
    decimalValue digits = Nat.ofDigitChars 10 digits 0 := by
  rw [decimalValue, ofHalves_eq_ofDigits, ofDigits, List.foldl_map, Nat.ofDigitChars_eq_foldl]
  simp only [Nat.mul_comm 10]
  rfl

theorem decimalValue_ofNat (n : Nat) : decimalValue (ofNat n) = n := by
  rw [decimalValue_eq_ofDigitChars, ofNat, Nat.ofDigitChars_ten_toDigits]

theorem decimalValue_padded (width n : Nat) : decimalValue (padded width n) = n := by
  rw [decimalValue_eq_ofDigitChars, padded, padZeros, Nat.ofDigitChars_append,
    Nat.ofDigitChars_replicate_zero, Nat.mul_zero, ofNat, Nat.ofDigitChars_ten_toDigits]

theorem decimalValue_append (high low : List Char) :
    decimalValue (high ++ low) = decimalValue high * 10 ^ low.length + decimalValue low := by
  simp only [decimalValue, ofHalves_eq_ofDigits]
  rw [List.map_append, ofDigits_append, List.length_map]

theorem decimalValue_replicate_zero (zeros : Nat) :
    decimalValue (List.replicate zeros '0') = 0 := by
  rw [decimalValue_eq_ofDigitChars, Nat.ofDigitChars_replicate_zero, Nat.mul_zero]

theorem decimalValue_dropWhile_zero (digits : List Char) :
    decimalValue (digits.dropWhile (· == '0')) = decimalValue digits := by
  simp only [decimalValue_eq_ofDigitChars]
  induction digits with
  | nil => rfl
  | cons c digits ih =>
    rw [List.dropWhile_cons]
    split
    next zero =>
      obtain rfl := eq_of_beq zero
      rw [ih, Nat.ofDigitChars_cons]
      rfl
    next => rfl

theorem ofDigits_lt {base : Nat} {digits : List Nat} (small : ∀ digit ∈ digits, digit < base) :
    ofDigits base digits < base ^ digits.length := by
  induction digits with
  | nil => exact Nat.one_pos
  | cons digit digits ih =>
    obtain ⟨first, rest⟩ := List.forall_mem_cons.mp small
    have tail := ih rest
    have head : (digit + 1) * base ^ digits.length ≤ base * base ^ digits.length :=
      Nat.mul_le_mul_right _ first
    rw [ofDigits, List.foldl_cons, foldl_digits, List.length_cons, Nat.pow_succ', Nat.zero_mul,
      Nat.zero_add]
    rw [Nat.succ_mul] at head
    omega

theorem decimalValue_lt {digits : List Char} (ascii : ∀ c ∈ digits, isAsciiDigit c = true) :
    decimalValue digits < 10 ^ digits.length := by
  have small : ∀ digit ∈ digits.map fun c => c.toNat - 48, digit < 10 := by
    intro digit member
    obtain ⟨c, inRun, rfl⟩ := List.mem_map.mp member
    have high := ascii c inRun
    rw [isAsciiDigit, Bool.and_eq_true, decide_eq_true_eq, decide_eq_true_eq] at high
    have bound : c.toNat ≤ 57 := high.2
    omega
  have below := ofDigits_lt small
  rwa [List.length_map, ← ofHalves_eq_ofDigits] at below

theorem ofNat_injective {m n : Nat} (same : ofNat m = ofNat n) : m = n := by
  have values := congrArg decimalValue same
  rwa [decimalValue_ofNat, decimalValue_ofNat] at values

theorem ofInt_of_nonneg {n : Int} (nonneg : 0 ≤ n) : ofInt n = ofNat n.toNat := by
  rw [ofInt, if_neg (Int.not_lt.mpr nonneg)]
  congr 1
  omega

theorem ofNat_ne_nil (n : Nat) : ofNat n ≠ [] :=
  Nat.toDigits_ne_nil

theorem ofNat_mul_ten {n : Nat} (positive : 0 < n) : ofNat (n * 10) = ofNat n ++ ['0'] := by
  have large : 10 ≤ n * 10 := by omega
  rw [ofNat, Nat.toDigits_of_base_le (by decide) large, Nat.mul_div_cancel n (by decide),
    Nat.mul_mod_left]
  rfl

theorem padded_mul_ten {n : Nat} (positive : 0 < n) (width : Nat) :
    padded (width + 1) (n * 10) = padded width n ++ ['0'] := by
  rw [padded, padded, padZeros, padZeros, ofNat_mul_ten positive, List.length_append,
    List.length_singleton, Nat.add_sub_add_right, List.append_assoc]

theorem length_ofNat_le {n width : Nat} (positive : 0 < width) (fits : n < 10 ^ width) :
    (ofNat n).length ≤ width :=
  (Nat.length_toDigits_le_iff (by decide) positive).mpr fits

theorem length_padded {width n : Nat} (positive : 0 < width) (fits : n < 10 ^ width) :
    (padded width n).length = width := by
  have short := length_ofNat_le positive fits
  rw [padded, padZeros, List.length_append, List.length_replicate]
  omega

theorem length_ofNat {width n : Nat} (fits : n < 10 ^ (width + 1)) (wide : 10 ^ width ≤ n) :
    (ofNat n).length = width + 1 := by
  have short := length_ofNat_le (Nat.succ_pos width) fits
  rcases Nat.eq_zero_or_pos width with rfl | positive
  · have some : 0 < (ofNat n).length := Nat.length_toDigits_pos
    omega
  · have long : ¬ (ofNat n).length ≤ width := fun small =>
      absurd ((Nat.length_toDigits_le_iff (by decide) positive).mp small) (by omega)
    omega

end ConfigExpr.Numeral
