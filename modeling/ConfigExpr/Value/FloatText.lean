import ConfigExpr.Number.DecimalText

/-!
The text of a float inside strings: the exact value rounded to fourteen significant digits, without
the zeros that end its fraction. The exponent after rounding decides between plain notation and a
mantissa with an exponent; a mantissa always shows one decimal.
-/
namespace ConfigExpr.FloatText

def precision : Nat :=
  14

/-- Plain notation is for exponents from -4 up to the precision. -/
def isPlain (exponent : Int) : Bool :=
  -4 ≤ exponent && exponent < precision

def withExponent (mantissa : List Char) (exponent : Int) : List Char :=
  let shown := DecimalText.stripFractionZeros mantissa
  let shown := if shown.contains '.' then shown else shown ++ ['.', '0']
  shown ++ 'E' :: (if exponent < 0 then '-' else '+') :: Numeral.ofNat exponent.natAbs

def magnitude (x : Binary64) : List Char :=
  let (mantissa, exponent) := DecimalText.scientific x (precision - 1)
  if x.isZero || isPlain exponent then
    DecimalText.stripFractionZeros (DecimalText.fixed x (precision - 1 - exponent).toNat)
  else withExponent mantissa exponent

end ConfigExpr.FloatText

namespace ConfigExpr

/-- The text of a float; a negative zero keeps its sign. -/
def Binary64.text (x : Binary64) : String :=
  if x.isNaN then "NAN"
  else if x.isInfinite then (if x.isNegative then "-INF" else "INF")
  else
    let shown := FloatText.magnitude x
    String.ofList (if x.isNegative then '-' :: shown else shown)

end ConfigExpr
