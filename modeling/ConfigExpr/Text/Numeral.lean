import ConfigExpr.Text.Digit

/-!
Decimal numerals: writing a number in its shortest or zero-padded form, and reading a signed
numeral into a range of integers. Reading goes digit by digit, so of two faults in one numeral the
one further left is reported.
-/
namespace ConfigExpr.Numeral
open Text

def ofNat (n : Nat) : List Char :=
  Nat.toDigits 10 n

def ofInt (n : Int) : List Char :=
  if n < 0 then '-' :: ofNat n.natAbs else ofNat n.natAbs

/-- Zeros in front until the text has `width` characters; a longer text stays as it is. -/
def padZeros (width : Nat) (digits : List Char) : List Char :=
  List.replicate (width - digits.length) '0' ++ digits

def padded (width n : Nat) : List Char :=
  padZeros width (ofNat n)

inductive Fault where
  | empty
  | invalidDigit
  | tooLarge
  | tooSmall
deriving DecidableEq, Repr

def Fault.message : Fault → String
  | .empty => "cannot parse integer from empty string"
  | .invalidDigit => "invalid digit found in string"
  | .tooLarge => "number too large to fit in target type"
  | .tooSmall => "number too small to fit in target type"

/-- Continues the magnitude `value` with the digits of `text` while it stays within `bound`. -/
def magnitude (bound : Nat) (beyond : Fault) : Nat → List Char → Except Fault Nat
  | value, [] => .ok value
  | value, c :: rest =>
    match digitIn? 10 c with
    | none => .error .invalidDigit
    | some digit =>
      let next := value * 10 + digit
      if next ≤ bound then magnitude bound beyond next rest else .error beyond

/-- Reads an optional sign and at least one ASCII digit as an integer from `low` to `high`. A range
without negative numbers has no minus sign. -/
def read (low high : Int) : List Char → Except Fault Int
  | [] => .error .empty
  | [c] =>
    match digitIn? 10 c with
    | some digit => .ok digit
    | none => .error .invalidDigit
  | '+' :: digits => (magnitude high.toNat .tooLarge 0 digits).map fun value => value
  | '-' :: digits =>
    if low < 0 then (magnitude (-low).toNat .tooSmall 0 digits).map fun value => -value
    else .error .invalidDigit
  | digits => (magnitude high.toNat .tooLarge 0 digits).map fun value => value

def read32 : List Char → Except Fault Int :=
  read (-2 ^ 31) (2 ^ 31 - 1)

def read64 : List Char → Except Fault Int :=
  read (-2 ^ 63) (2 ^ 63 - 1)

def readUnsigned64 : List Char → Except Fault Int :=
  read 0 (2 ^ 64 - 1)

end ConfigExpr.Numeral
