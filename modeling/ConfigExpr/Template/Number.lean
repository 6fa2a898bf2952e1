import ConfigExpr.Number.DecimalText
import ConfigExpr.Number.Logarithm

/-!
Numbers in formatted text: magnitudes of floats in scientific and in general notation. General
notation picks fixed or scientific notation by the logarithm to base ten and drops the zeros that
end a fraction.
-/
namespace ConfigExpr.Template

/-- A mantissa with an exponent mark, a sign and the digits of the exponent. -/
def exponentText (mantissa : List Char) (exponent : Int) (mark : Char) : List Char :=
  mantissa ++ mark :: (if exponent < 0 then '-' else '+') :: Numeral.ofNat exponent.natAbs

def scientific (x : Binary64) (places : Nat) (mark : Char) : List Char :=
  let (mantissa, exponent) := DecimalText.scientific x places
  exponentText mantissa exponent mark

/-- The notation without needless zeros for a count of significant digits, at least one. -/
def general (x : Binary64) (digits : Nat) (mark : Char) : List Char :=
  let digits := max digits 1
  if x.isZero then ['0']
  else if x.isInfinite then scientific x (digits - 1) mark
  else
    let exponent := if x.isNaN then 0 else x.log10.floor
    if exponent < -4 || digits ≤ exponent then
      let (mantissa, exponent) := DecimalText.scientific x (digits - 1)
      exponentText (DecimalText.stripFractionZeros mantissa) exponent mark
    else DecimalText.stripFractionZeros (DecimalText.fixed x (digits - 1 - exponent).toNat)

end ConfigExpr.Template
