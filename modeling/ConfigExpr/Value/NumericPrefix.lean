import ConfigExpr.Value.Basic
import ConfigExpr.Text.Strip

/-!
The number at the start of a text. Behind leading blanks stand an optional sign, digits with an
optional fraction, or a fraction alone, and an optional exponent; whatever follows is ignored. A
number without fraction and exponent that has 64 bits is an integer, any other is a float.
-/
namespace ConfigExpr.NumericPrefix
open Text

structure Parts where
  negative : Bool
  whole : List Char
  fraction : Option (List Char)
  exponent : Option (Bool × List Char)
deriving DecidableEq, Repr

/-- Takes an optional sign; the flag says whether it was a minus. -/
def takeSign : List Char → Bool × List Char
  | '-' :: rest => (true, rest)
  | '+' :: rest => (false, rest)
  | text => (false, text)

/-- Takes a point with at least one digit behind it. -/
def takeFraction : List Char → Option (List Char) × List Char
  | '.' :: rest =>
    match rest.takeWhile isAsciiDigit with
    | [] => (none, '.' :: rest)
    | digits => (some digits, rest.dropWhile isAsciiDigit)
  | text => (none, text)

/-- Takes an exponent mark, an optional sign and at least one digit. -/
def takeExponent : List Char → Option (Bool × List Char) × List Char
  | mark :: rest =>
    if mark = 'e' || mark = 'E' then
      let (negative, behind) := takeSign rest
      match behind.takeWhile isAsciiDigit with
      | [] => (none, mark :: rest)
      | digits => (some (negative, digits), behind.dropWhile isAsciiDigit)
    else (none, mark :: rest)
  | [] => (none, [])

def parts? (text : List Char) : Option Parts :=
  let (negative, text) := takeSign text
  let whole := text.takeWhile isAsciiDigit
  let (fraction, text) := takeFraction (text.dropWhile isAsciiDigit)
  if whole.isEmpty && fraction.isNone then none
  else
    let (exponent, _) := takeExponent text
    some ⟨negative, whole, fraction, exponent⟩

/-- An exponent that has reached this bound takes in no more digits. -/
def exponentBound : Nat :=
  2 ^ 16

/-- The value of the digits of an exponent, up to the one that takes it to the bound. -/
def exponentValue (digits : List Char) : Nat :=
  digits.foldl
    (fun value c => if value < exponentBound then value * 10 + (c.toNat - 48) else value) 0

namespace Parts

/-- The power of ten in which the last digit counts. -/
def scale (p : Parts) : Int :=
  let exponent : Int := match p.exponent with
    | none => 0
    | some (negative, digits) =>
      if negative then -(exponentValue digits : Int) else exponentValue digits
  exponent - (p.fraction.getD []).length

def signed (p : Parts) : Int :=
  if p.negative then -(decimalValue p.whole : Int) else decimalValue p.whole

def toFloat (p : Parts) : Binary64 :=
  .ofDecimal p.negative (decimalValue (p.whole ++ p.fraction.getD [])) p.scale

def value (p : Parts) : Value :=
  if p.fraction.isNone && p.exponent.isNone && -2 ^ 63 ≤ p.signed && p.signed < 2 ^ 63 then
    .integer (Int64.ofInt p.signed)
  else .float p.toFloat

end Parts

/-- The number that a text starts with, as a value. -/
def parse? (text : String) : Option Value :=
  (parts? (stripStart isBlank text.toList)).map Parts.value

end ConfigExpr.NumericPrefix
