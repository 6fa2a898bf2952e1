import ConfigExpr.Proofs.Outcome
import ConfigExpr.Proofs.Text.DecimalLiterals

/-!
Whole numbers as they are given for a range of integers: a sign, if there is one, and digits.
Reading takes exactly those whose value lies in the range, however many zeros stand in front.
-/
namespace ConfigExpr
open Text

structure Text.SignedDigits where
  sign : WrittenSign
  digits : Digits

namespace Text.SignedDigits

def text (n : SignedDigits) : List Char :=
  n.sign.text ++ n.digits.chars

def value (n : SignedDigits) : ℤ :=
  if n.sign.isMinus then -(n.digits.value : ℤ) else n.digits.value

theorem value_of_absent {n : SignedDigits} (unsigned : n.sign = .absent) :
    n.value = n.digits.value := by
  simp [value, unsigned, WrittenSign.isMinus]

end Text.SignedDigits

namespace Numeral

theorem digitIn?_ten (c : Char) :
    digitIn? 10 c = if isAsciiDigit c then some (c.toNat - 48) else none := by
  have ascii : isAsciiDigit c = (decide (48 ≤ c.toNat) && decide (c.toNat ≤ 57)) := rfl
  simp only [digitIn?, ascii, Bool.and_eq_true, decide_eq_true_eq]
  split_ifs <;> first | rfl | omega

theorem decimalValue_singleton (c : Char) : decimalValue [c] = c.toNat - 48 := by
  simp [decimalValue, ofHalves_eq_ofDigits, ofDigits]

theorem decimalValue_cons (c : Char) (digits : List Char) :
    decimalValue (c :: digits) =
      (c.toNat - 48) * 10 ^ digits.length + decimalValue digits := by
  rw [← List.singleton_append, decimalValue_append, decimalValue_singleton]

theorem magnitude_eq_ok_iff {bound start n : ℕ} {beyond : Fault} {text : List Char}
    (fits : start ≤ bound) :
    magnitude bound beyond start text = .ok n ↔ (∀ c ∈ text, isAsciiDigit c = true) ∧
      start * 10 ^ text.length + decimalValue text = n ∧ n ≤ bound := by
  induction text generalizing start with
  | nil =>
    have nothing : decimalValue [] = 0 := rfl
    simp only [magnitude, Except.ok.injEq, List.not_mem_nil, false_implies, implies_true,
      List.length_nil, pow_zero, mul_one, nothing, add_zero, true_and]
    exact ⟨fun same => ⟨same, same ▸ fits⟩, And.left⟩
  | cons c text ih =>
    rw [magnitude, digitIn?_ten, List.forall_mem_cons, List.length_cons, decimalValue_cons]
    by_cases digit : isAsciiDigit c = true
    · have whole : start * 10 ^ (text.length + 1) +
          ((c.toNat - 48) * 10 ^ text.length + decimalValue text) =
            (start * 10 + (c.toNat - 48)) * 10 ^ text.length + decimalValue text := by
        ring
      rw [if_pos digit, whole]
      dsimp only
      by_cases next : start * 10 + (c.toNat - 48) ≤ bound
      · rw [if_pos next, ih next]
        simp only [digit, true_and]
      · have more := Nat.le_mul_of_pos_right (start * 10 + (c.toNat - 48))
          (Nat.pow_pos (n := text.length) (show 0 < 10 by decide))
        rw [if_neg next]
        exact ⟨nofun, fun ⟨_, same, within⟩ => absurd within (by omega)⟩
    · rw [if_neg digit]
      exact ⟨nofun, fun ⟨⟨ascii, _⟩, _⟩ => absurd ascii digit⟩

theorem magnitude_digits {bound n : ℕ} {beyond : Fault} {text : List Char} :
    magnitude bound beyond 0 text = .ok n ↔
      (∀ c ∈ text, isAsciiDigit c = true) ∧ decimalValue text = n ∧ n ≤ bound := by
  rw [magnitude_eq_ok_iff (Nat.zero_le bound), Nat.zero_mul, Nat.zero_add]

theorem magnitude_map_eq_ok {bound : ℕ} {beyond : Fault} {digits : List Char} {f : ℤ → ℤ} {n : ℤ}
    (taken : Except.map f (magnitude bound beyond 0 digits >>= fun m => pure (m : ℤ)) = .ok n) :
    (∀ c ∈ digits, isAsciiDigit c = true) ∧ decimalValue digits ≤ bound ∧
      f (decimalValue digits) = n := by
  obtain ⟨value, cast, rfl⟩ := Outcome.map_eq_ok.mp taken
  obtain ⟨m, run, same⟩ := Outcome.bind_eq_ok.mp cast
  obtain rfl := Except.ok.inj same
  obtain ⟨ascii, rfl, within⟩ := magnitude_digits.mp run
  exact ⟨ascii, within, rfl⟩

section Ranges
variable {low high n : ℤ} {text : List Char}

theorem exists_signedDigits_of_read (negative : low < 0) (digit : 9 ≤ high)
    (taken : read low high text = .ok n) :
    ∃ w : SignedDigits, w.text = text ∧ w.value = n ∧ low ≤ n ∧ n ≤ high := by
  unfold read at taken
  split at taken
  next => cases taken
  next c =>
    rw [digitIn?_ten] at taken
    by_cases ascii : isAsciiDigit c = true
    · rw [if_pos ascii] at taken
      have bounds := Scan.toNat_bounds_of_digit ascii
      obtain rfl := Except.ok.inj taken
      refine ⟨⟨.absent, [c], List.forall_mem_singleton.mpr ascii, List.cons_ne_nil c []⟩, rfl,
        congrArg Nat.cast (decimalValue_singleton c), ?_, ?_⟩
      · omega
      · omega
    · rw [if_neg ascii] at taken
      cases taken
  next digits noPlusAlone =>
    obtain ⟨ascii, within, value⟩ := magnitude_map_eq_ok taken
    refine ⟨⟨.plus, digits, ascii, noPlusAlone⟩, rfl, value, ?_, ?_⟩
    · omega
    · omega
  next digits noMinusAlone =>
    rw [if_pos negative] at taken
    obtain ⟨ascii, within, value⟩ := magnitude_map_eq_ok taken
    refine ⟨⟨.minus, digits, ascii, noMinusAlone⟩, rfl, value, ?_, ?_⟩
    · omega
    · omega
  next filled _ _ _ =>
    obtain ⟨ascii, within, value⟩ := magnitude_map_eq_ok taken
    refine ⟨⟨.absent, text, ascii, filled⟩, rfl, value, ?_, ?_⟩
    · omega
    · omega

theorem read_text (negative : low < 0) {w : SignedDigits} (above : low ≤ w.value)
    (below : w.value ≤ high) : read low high w.text = .ok w.value := by
  obtain ⟨sign, chars, ascii, filled⟩ := w
  have run {bound : ℕ} {beyond : Fault} (within : decimalValue chars ≤ bound) :
      magnitude bound beyond 0 chars = .ok (decimalValue chars) :=
    magnitude_digits.mpr ⟨ascii, rfl, within⟩
  obtain ⟨c, rest, rfl⟩ := List.exists_cons_of_ne_nil filled
  cases sign with
  | minus =>
    replace above : low ≤ -(decimalValue (c :: rest) : ℤ) := above
    rw [SignedDigits.text, WrittenSign.text, List.singleton_append, read, if_pos negative,
      run (by omega)]
    · rfl
    · exact List.cons_ne_nil c rest
  | plus =>
    replace below : (decimalValue (c :: rest) : ℤ) ≤ high := below
    rw [SignedDigits.text, WrittenSign.text, List.singleton_append, read, run (by omega)]
    · rfl
    · exact List.cons_ne_nil c rest
  | absent =>
    replace below : (decimalValue (c :: rest) : ℤ) ≤ high := below
    have digit : isAsciiDigit c = true := ascii c List.mem_cons_self
    rw [SignedDigits.text, WrittenSign.text, List.nil_append]
    cases rest with
    | nil =>
      rw [read, digitIn?_ten, if_pos digit]
      exact congrArg (fun n : ℕ => Except.ok (n : ℤ)) (decimalValue_singleton c).symm
    | cons d rest =>
      have notPlus : c ≠ '+' := by
        rintro rfl
        cases digit
      have notMinus : c ≠ '-' := by
        rintro rfl
        cases digit
      rw [read, run (by omega)]
      · rfl
      · exact List.cons_ne_nil c (d :: rest)
      · intro _ same
        cases same
      · exact fun _ same => notPlus (List.cons.inj same).1
      · exact fun _ same => notMinus (List.cons.inj same).1

theorem read_eq_ok_iff (negative : low < 0) (digit : 9 ≤ high) :
    read low high text = .ok n ↔
      ∃ w : SignedDigits, w.text = text ∧ w.value = n ∧ low ≤ n ∧ n ≤ high := by
  refine ⟨exists_signedDigits_of_read negative digit, ?_⟩
  rintro ⟨w, rfl, rfl, above, below⟩
  exact read_text negative above below

end Ranges

theorem read32_eq_ok_iff {n : ℤ} {text : List Char} : read32 text = .ok n ↔
    ∃ w : SignedDigits, w.text = text ∧ w.value = n ∧ -2 ^ 31 ≤ n ∧ n ≤ 2 ^ 31 - 1 :=
  read_eq_ok_iff (by decide) (by decide)

end Numeral

end ConfigExpr
