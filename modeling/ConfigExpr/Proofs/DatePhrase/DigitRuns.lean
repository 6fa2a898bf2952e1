import ConfigExpr.DatePhrase.CivilTime
import ConfigExpr.DatePhrase.Token
import ConfigExpr.Proofs.DatePhrase.Scanning
import ConfigExpr.Proofs.Text.Numerals

/-!
Runs of ASCII digits of a known length, as printed numbers are, and what the scanners of date phrases
make of them.
-/
namespace ConfigExpr
open Text

def asciiDigits : List Char :=
  ['0', '1', '2', '3', '4', '5', '6', '7', '8', '9']

theorem mem_asciiDigits {c : Char} (digit : isAsciiDigit c = true) : c ∈ asciiDigits := by
  obtain ⟨low, high⟩ := Scan.toNat_bounds_of_digit digit
  obtain ⟨n, few, same⟩ : ∃ n < 10, c.toNat = 48 + n := ⟨c.toNat - 48, by omega, by omega⟩
  have each : ∀ n < 10, Char.ofNat (48 + n) ∈ asciiDigits := by decide
  rw [← Char.ofNat_toNat c, same]
  exact each n few

structure DigitRun (count : Nat) where
  digits : List Char
  ascii : ∀ c ∈ digits, isAsciiDigit c = true
  length_eq : digits.length = count

namespace DigitRun
open Scan Numeral
variable {count : Nat} {p : Char → Bool} {rest : List Char}

def value (r : DigitRun count) : Nat :=
  decimalValue r.digits

def ofPadded (width n : Nat) (positive : 0 < width) (fits : n < 10 ^ width) : DigitRun width :=
  ⟨padded width n, fun _ => isAsciiDigit_of_mem_padded, length_padded positive fits⟩

def ofNumeral (n : Nat) : DigitRun (ofNat n).length :=
  ⟨ofNat n, fun _ => isAsciiDigit_of_mem_ofNat, rfl⟩

theorem length_numeral_pos (n : Nat) : 0 < (ofNat n).length :=
  List.length_pos_iff.mpr (ofNat_ne_nil n)

@[simp] theorem value_ofPadded {width n : Nat} (positive : 0 < width) (fits : n < 10 ^ width) :
    (ofPadded width n positive fits).value = n :=
  decimalValue_padded width n

@[simp] theorem value_ofNumeral (n : Nat) : (ofNumeral n).value = n :=
  decimalValue_ofNat n

variable (r : DigitRun count)

theorem forall_mem (each : asciiDigits.all p = true) : ∀ c ∈ r.digits, p c = true :=
  fun c member => List.all_eq_true.mp each c (mem_asciiDigits (r.ascii c member))

theorem forall_mem_not (others : asciiDigits.any p = false) : ∀ c ∈ r.digits, p c = false :=
  fun c member => Bool.eq_false_iff.mpr
    (List.any_eq_false.mp others c (mem_asciiDigits (r.ascii c member)))

theorem digits_ne_nil (positive : 0 < count) : r.digits ≠ [] :=
  List.ne_nil_of_length_pos (by rwa [r.length_eq])

theorem stops (positive : 0 < count) (others : asciiDigits.any p = false) :
    Stops p (r.digits ++ rest) :=
  stops_append (r.digits_ne_nil positive) (r.forall_mem_not others)

theorem digits_stops (others : asciiDigits.any p = false) : Stops p r.digits :=
  stops_of_forall (r.forall_mem_not others)

theorem reverse_stops (positive : 0 < count) (others : asciiDigits.any p = false) :
    Stops p (r.digits.reverse ++ rest) :=
  stops_append (List.reverse_ne_nil_iff.mpr (r.digits_ne_nil positive)) fun c member =>
    r.forall_mem_not others c (List.mem_reverse.mp member)

@[simp] theorem map_toLower : r.digits.map Char.toLower = r.digits :=
  (List.map_congr_left fun c member => eq_of_beq
    (r.forall_mem (p := fun c => c.toLower == c) rfl c member)).trans (List.map_id _)

theorem exactly_takes (each : asciiDigits.all p = true) :
    exactly count p (r.digits ++ rest) = some (r.digits, rest) := by
  have takes : exactly r.digits.length p (r.digits ++ rest) = some (r.digits, rest) :=
    Scan.exactly_takes (r.forall_mem each)
  rwa [r.length_eq] at takes

theorem exactly_fails {wanted : Nat} (each : asciiDigits.all p = true) (short : count < wanted)
    (stops : Stops p rest) : exactly wanted p (r.digits ++ rest) = none :=
  Scan.exactly_fails (r.forall_mem each) (by rwa [r.length_eq]) stops

theorem upTo_takes {most : Nat} (each : asciiDigits.all p = true) (positive : 0 < count)
    (fits : count = most ∨ count < most ∧ Stops p rest) :
    upTo most p (r.digits ++ rest) = some (r.digits, rest) :=
  Scan.upTo_takes (r.digits_ne_nil positive) (r.forall_mem each) (by rwa [r.length_eq])

theorem value_lt : r.value < 10 ^ count := by
  have below := decimalValue_lt r.ascii
  rwa [r.length_eq] at below

theorem number?_eq : DatePhrase.Token.number? r.digits = some r.value :=
  if_pos (List.all_eq_true.mpr r.ascii)

theorem fixedNumber_takes :
    DatePhrase.fixedNumber count (r.digits ++ rest) = some (r.value, rest) := by
  rw [DatePhrase.fixedNumber, bind_of_takes (r.exactly_takes rfl)]
  rfl

theorem fixedNumber_fails {wanted : Nat} (short : count < wanted) (stops : Stops isAsciiDigit rest) :
    DatePhrase.fixedNumber wanted (r.digits ++ rest) = none :=
  bind_of_fails (r.exactly_fails rfl short stops)

end DigitRun

theorem DatePhrase.bind_fixedNumber_eq_some {β : Type} {count : Nat} {f : Nat → Scan β} {b : β}
    {text rest : List Char} (takes : (fixedNumber count >>= f) text = some (b, rest)) :
    ∃ run : DigitRun count, ∃ behind, text = run.digits ++ behind ∧
      f run.value behind = some (b, rest) := by
  obtain ⟨value, behind, taken, next⟩ := Scan.bind_eq_some.mp takes
  obtain ⟨digits, behind', exact, valued⟩ := Scan.bind_eq_some.mp taken
  obtain ⟨whole, length, ascii⟩ := Scan.exactly_eq_some exact
  obtain ⟨rfl, rfl⟩ := Prod.mk.inj (Option.some.inj valued)
  exact ⟨⟨digits, ascii, length⟩, behind', whole, next⟩

end ConfigExpr
