import ConfigExpr.Number.Binary64

/-!
Sums, products and quotients of finite numbers of 64 bits: the exact result, rounded once. A result
that is too large becomes infinite.
-/
namespace ConfigExpr.Binary64

def neg (x : Binary64) : Binary64 :=
  ofMagnitudeBits (!x.isNegative) (x.bits.toNat % 2 ^ 63)

def mul (x y : Binary64) : Binary64 :=
  ofRatio (x.isNegative != y.isNegative) (x.numerator * y.numerator)
    (x.denominator * y.denominator)

/-- The quotient by a number other than zero. -/
def div (x y : Binary64) : Binary64 :=
  ofRatio (x.isNegative != y.isNegative) (x.numerator * y.denominator)
    (x.denominator * y.numerator)

def signedNumerator (x : Binary64) : Int :=
  if x.isNegative then -(x.numerator : Int) else x.numerator

/-- The sum; a sum of zero has no sign unless both numbers have one. -/
def add (x y : Binary64) : Binary64 :=
  let sum := x.signedNumerator * y.denominator + y.signedNumerator * x.denominator
  ofRatio (sum < 0 || (sum == 0 && x.isNegative && y.isNegative)) sum.natAbs
    (x.denominator * y.denominator)

def floor (x : Binary64) : Int :=
  x.signedNumerator / x.denominator

end ConfigExpr.Binary64
