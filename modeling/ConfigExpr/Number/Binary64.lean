import ConfigExpr.Number.Rounding

/-!
Binary floating-point numbers of 64 bits. A finite number is a sign and `significand * 2 ^ scale`;
every operation works on that exact form in whole numbers and rounds once, to the nearest
representable number with ties to the even significand.
-/
namespace ConfigExpr

structure Binary64 where
  bits : UInt64
deriving DecidableEq, Repr

namespace Binary64
open Number

def isNegative (x : Binary64) : Bool :=
  2 ^ 63 ≤ x.bits.toNat

def exponentField (x : Binary64) : Nat :=
  x.bits.toNat / 2 ^ 52 % 2 ^ 11

def fractionField (x : Binary64) : Nat :=
  x.bits.toNat % 2 ^ 52

def isFinite (x : Binary64) : Bool :=
  x.exponentField != 2047

def isNaN (x : Binary64) : Bool :=
  x.exponentField == 2047 && x.fractionField != 0

def isInfinite (x : Binary64) : Bool :=
  x.exponentField == 2047 && x.fractionField == 0

def isZero (x : Binary64) : Bool :=
  x.exponentField == 0 && x.fractionField == 0

def significand (x : Binary64) : Nat :=
  if x.exponentField = 0 then x.fractionField else x.fractionField + 2 ^ 52

def scale (x : Binary64) : Int :=
  (max x.exponentField 1 : Nat) - 1075

/-- The magnitude of a finite number is `numerator / denominator`. -/
def numerator (x : Binary64) : Nat :=
  x.significand * 2 ^ x.scale.toNat

def denominator (x : Binary64) : Nat :=
  2 ^ (-x.scale).toNat

def ofMagnitudeBits (negative : Bool) (magnitude : Nat) : Binary64 :=
  ⟨UInt64.ofNat ((if negative then 2 ^ 63 else 0) + magnitude)⟩

def infinityBits : Nat :=
  2047 * 2 ^ 52

def zero (negative : Bool) : Binary64 :=
  ofMagnitudeBits negative 0

def infinity (negative : Bool) : Binary64 :=
  ofMagnitudeBits negative infinityBits

/-- The quiet NaN without a sign. -/
def nan : Binary64 :=
  ⟨0x7ff8000000000000⟩

def abs (x : Binary64) : Binary64 :=
  ⟨UInt64.ofNat (x.bits.toNat % 2 ^ 63)⟩

/-- The exponent of two in whose steps a positive quotient is rounded: 53 bits of significand, or
fewer at the subnormal end. -/
def stepExponent (numerator denominator : Nat) : Int :=
  let guess : Int := (numerator.log2 : Int) - denominator.log2 - 52
  let fits := numerator * 2 ^ (-guess).toNat < denominator * 2 ^ (guess.toNat + 52)
  max (if fits then guess - 1 else guess) (-1074)

/-- The number nearest to `numerator / denominator`. A significand that rounds up to 53 bits of
ones plus one carries into the exponent field, and from the largest exponent into infinity. -/
def ofRatio (negative : Bool) (numerator denominator : Nat) : Binary64 :=
  if numerator = 0 then zero negative
  else
    let step := stepExponent numerator denominator
    let rounded :=
      roundHalfEven (numerator * 2 ^ (-step).toNat) (denominator * 2 ^ step.toNat)
    ofMagnitudeBits negative (min infinityBits ((step + 1074).toNat * 2 ^ 52 + rounded))

/-- The number nearest to `digits * 10 ^ exponent`. Beyond the two guards the value is above the
largest number or below half the smallest one. -/
def ofDecimal (negative : Bool) (digits : Nat) (exponent : Int) : Binary64 :=
  if digits = 0 then zero negative
  else if 400 < exponent then infinity negative
  else if exponent < -(400 + digits.log2) then zero negative
  else ofRatio negative (digits * 10 ^ exponent.toNat) (10 ^ (-exponent).toNat)

def ofInt (n : Int) : Binary64 :=
  ofRatio (n < 0) n.natAbs 1

def truncate (x : Binary64) : Int :=
  let whole : Int := (x.numerator / x.denominator : Nat)
  if x.isNegative then -whole else whole

end Binary64

def clampInt64 (n : Int) : Int64 :=
  Int64.ofInt (max (-2 ^ 63) (min n (2 ^ 63 - 1)))

/-- The whole part, clamped to 64 bits; zero for NaN. -/
def Binary64.toInt64 (x : Binary64) : Int64 :=
  if x.isNaN then 0
  else if x.isInfinite then (if x.isNegative then Int64.minValue else Int64.maxValue)
  else clampInt64 x.truncate

end ConfigExpr
