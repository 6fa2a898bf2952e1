import ConfigExpr.Number.Power

/-!
Decimal digits of every script, and ASCII digits with their values. The first class decides where a
run of digits ends; only ASCII digits have a value that can be read.
-/
namespace ConfigExpr.Text

/-- The zeros of all decimal systems in Unicode; the other nine digits of each follow its zero. -/
def decimalZeros : List Nat :=
  [0x0030, 0x0660, 0x06F0, 0x07C0, 0x0966, 0x09E6, 0x0A66, 0x0AE6, 0x0B66, 0x0BE6, 0x0C66, 0x0CE6,
   0x0D66, 0x0DE6, 0x0E50, 0x0ED0, 0x0F20, 0x1040, 0x1090, 0x17E0, 0x1810, 0x1946, 0x19D0, 0x1A80,
   0x1A90, 0x1B50, 0x1BB0, 0x1C40, 0x1C50, 0xA620, 0xA8D0, 0xA900, 0xA9D0, 0xA9F0, 0xAA50, 0xABF0,
   0xFF10, 0x104A0, 0x10D30, 0x10D40, 0x11066, 0x110F0, 0x11136, 0x111D0, 0x112F0, 0x11450,
   0x114D0, 0x11650, 0x116C0, 0x116D0, 0x116DA, 0x11730, 0x118E0, 0x11950, 0x11BF0, 0x11C50,
   0x11D50, 0x11DA0, 0x11DE0, 0x11F50, 0x16130, 0x16A60, 0x16AC0, 0x16B50, 0x16D70, 0x1CCF0,
   0x1D7CE, 0x1D7D8, 0x1D7E2, 0x1D7EC, 0x1D7F6, 0x1E140, 0x1E2F0, 0x1E4F0, 0x1E5F1, 0x1E950,
   0x1FBF0]

def isDecimalDigit (c : Char) : Bool :=
  decimalZeros.any fun first => first ≤ c.toNat && c.toNat < first + 10

def isAsciiDigit (c : Char) : Bool :=
  '0' ≤ c && c ≤ '9'

/-- The value of an ASCII digit or letter as a digit of the given base, at most 36. -/
def digitIn? (base : Nat) (c : Char) : Option Nat :=
  let n := c.toNat
  let value :=
    if 48 ≤ n && n ≤ 57 then n - 48
    else if 97 ≤ n && n ≤ 122 then n - 87
    else if 65 ≤ n && n ≤ 90 then n - 55
    else base
  if value < base then some value else none

/-- The number that a run of digits denotes, most significant digit first. -/
def ofDigits (base : Nat) (digits : List Nat) : Nat :=
  digits.foldl (fun value digit => value * base + digit) 0

theorem foldl_digits (base start : Nat) (digits : List Nat) :
    digits.foldl (fun value digit => value * base + digit) start =
      start * base ^ digits.length + ofDigits base digits := by
  induction digits generalizing start with
  | nil => simp [ofDigits]
  | cons digit rest ih =>
    rw [ofDigits, List.foldl_cons, List.foldl_cons, ih, ih (0 * base + digit)]
    simp [Nat.add_mul, Nat.pow_succ, Nat.mul_assoc, Nat.mul_comm base, Nat.add_assoc]

theorem ofDigits_append (base : Nat) (high low : List Nat) :
    ofDigits base (high ++ low) = ofDigits base high * base ^ low.length + ofDigits base low := by
  rw [ofDigits, List.foldl_append, foldl_digits, ← ofDigits]

/-- The number that a run of digits denotes, put together from its halves so many times over. A long
run needs fewer operations on large numbers this way. -/
def ofHalves (base : Nat) : (times : Nat) → List Nat → Nat
  | 0, digits => ofDigits base digits
  | times + 1, digits =>
    let half := digits.length / 2
    let low := digits.drop half
    ofHalves base times (digits.take half) * base ^ low.length + ofHalves base times low

theorem ofHalves_eq_ofDigits (base times : Nat) (digits : List Nat) :
    ofHalves base times digits = ofDigits base digits := by
  induction times generalizing digits with
  | zero => rfl
  | succ times ih =>
    simp only [ofHalves, ih]
    rw [← ofDigits_append, List.take_append_drop]

def decimalValue (digits : List Char) : Nat :=
  ofHalves 10 (digits.length / 256).log2 (digits.map fun c => c.toNat - 48)

end ConfigExpr.Text
