import ConfigExpr.Number.Binary64

/-!
Decimal approximations of the magnitude of a finite number: to a count of decimal places, to a
count of significant digits, and to the fewest digits that read back as the same number. All three
round the exact value once, with ties to the even last digit.
-/
namespace ConfigExpr

structure Decimal where
  digits : Nat
  exponent : Int
deriving DecidableEq, Repr

namespace Decimal

/-- The exponent of ten of the first of `count` digits. -/
def leading (d : Decimal) (count : Nat) : Int :=
  d.exponent + count - 1

/-- A decimal of `count` digits; nines that rounded up to a power of ten lose their last zero. -/
def ofRounded (count digits : Nat) (exponent : Int) : Decimal :=
  if digits = 10 ^ count then ⟨10 ^ (count - 1), exponent + 1⟩ else ⟨digits, exponent⟩

end Decimal

namespace Binary64
open Number

/-- The exponent of ten of the first significant digit: `10 ^ e ≤ x < 10 ^ (e + 1)`. -/
def leadingExponent (x : Binary64) : Int :=
  if x.denominator ≤ x.numerator then digitCount (x.numerator / x.denominator) - 1
  else -(digitCount ((x.denominator - 1) / x.numerator) : Int)

/-- The magnitude in units of `10 ^ exponent`, rounded. -/
def inUnits (x : Binary64) (exponent : Int) : Nat :=
  roundHalfEven (x.numerator * 10 ^ (-exponent).toNat) (x.denominator * 10 ^ exponent.toNat)

/-- The magnitude to `places` decimal places, in units of the last place. -/
def toPlaces (x : Binary64) (places : Nat) : Nat :=
  x.inUnits (-places)

/-- The magnitude to `count` significant digits, at least one. -/
def toSignificant (x : Binary64) (count : Nat) : Decimal :=
  if x.isZero then ⟨0, 1 - count⟩
  else
    let last := x.leadingExponent + 1 - count
    .ofRounded count (x.inUnits last) last

def readsBack (x : Binary64) (d : Decimal) : Bool :=
  ofDecimal false d.digits d.exponent == x.abs

/-- Of the two neighbours of the magnitude with `count` digits, the nearer one that reads back. -/
def shortWith? (x : Binary64) (count : Nat) : Option Decimal :=
  let last := x.leadingExponent + 1 - count
  let nearest := x.inUnits last
  let below := x.numerator * 10 ^ (-last).toNat / (x.denominator * 10 ^ last.toNat)
  let other := if nearest = below then below + 1 else below
  [nearest, other].findSome? fun digits =>
    let d := Decimal.ofRounded count digits last
    if x.readsBack d then some d else none

/-- The decimal of fewest digits that reads back as the magnitude, and the nearest of those.
Seventeen digits always read back. -/
def shortest (x : Binary64) : Decimal :=
  if x.isZero then ⟨0, 0⟩
  else
    match (List.range 17).findSome? fun count => x.shortWith? (count + 1) with
    | some d => d
    | none => x.toSignificant 17

end Binary64

end ConfigExpr
