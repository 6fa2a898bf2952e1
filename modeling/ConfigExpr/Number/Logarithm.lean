import ConfigExpr.Number.Arithmetic

/-!
The logarithm to base ten in arithmetic of 64 bits. A number is split into a power of two and a
factor near one; the natural logarithm of the factor is the nearest number of 64 bits, and the
logarithm is put together from it and from the logarithm of two, which is held in two parts. Each
step rounds, so the result may be a whole number although the exact logarithm lies just beside it.
-/
namespace ConfigExpr.Binary64

/-- Fixed-point values below have so many bits behind the point. -/
def fixedBits : Nat :=
  192

/-- Adds the terms `power / odd` of the series of the inverse hyperbolic tangent, each power being
the one before it times `square`, in fixed point. -/
def atanhTerms (square : Nat) : (terms : Nat) → (power odd : Nat) → Nat
  | 0, _, _ => 0
  | terms + 1, power, odd =>
    power / odd + atanhTerms square terms (power * square / 2 ^ fixedBits) (odd + 2)

/-- The number nearest to the natural logarithm of a ratio between a half and two. It is twice the
inverse hyperbolic tangent of a value of at most a third, for which 64 terms fill the fixed-point
bits. -/
def logOfRatio (numerator denominator : Nat) : Binary64 :=
  let distance := max numerator denominator - min numerator denominator
  let argument := distance * 2 ^ fixedBits / (numerator + denominator)
  let square := argument * argument / 2 ^ fixedBits
  ofRatio (numerator < denominator) (2 * atanhTerms square 64 argument 1) (2 ^ fixedBits)

/-- The leading bits of the logarithm of two to base ten. -/
def log10OfTwoHigh : Binary64 :=
  ⟨0x3FD34413509F6000⟩

/-- What the leading bits fall short of. -/
def log10OfTwoLow : Binary64 :=
  ⟨0x3D59FEF311F12B36⟩

def log10OfE : Binary64 :=
  ⟨0x3FDBCB7B1526E50E⟩

/-- The power of two that is split off: the factor lies from one to two, or for numbers below one
from a half to one. -/
def splitExponent (x : Binary64) : Int :=
  let leading := x.scale + x.significand.log2
  if leading < 0 then leading + 1 else leading

def log10 (x : Binary64) : Binary64 :=
  let exponent := x.splitExponent
  let factor :=
    logOfRatio (x.numerator * 2 ^ (-exponent).toNat) (x.denominator * 2 ^ exponent.toNat)
  let power := ofInt exponent
  let low := add (mul power log10OfTwoLow) (mul log10OfE factor)
  add low (mul power log10OfTwoHigh)

end ConfigExpr.Binary64
