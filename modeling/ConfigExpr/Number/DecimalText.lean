import ConfigExpr.Number.Decimal
import ConfigExpr.Text.Numeral

/-!
The text of decimal numbers: a point inside a run of digits, fixed places, one digit before the
point with an exponent beside it, and the removal of zeros that end a fraction. All texts here are
of magnitudes; a sign is written by the caller.
-/
namespace ConfigExpr.DecimalText

/-- Puts a decimal point before the last `places` digits, of which there are more. -/
def withPoint (digits : List Char) (places : Nat) : List Char :=
  if places = 0 then digits
  else
    let whole := digits.length - places
    digits.take whole ++ '.' :: digits.drop whole

/-- A number in units of its last decimal place, with at least one digit before the point. -/
def ofUnits (units places : Nat) : List Char :=
  withPoint (Numeral.padded (places + 1) units) places

def notFinite (x : Binary64) : List Char :=
  if x.isNaN then "NaN".toList else "inf".toList

def fixed (x : Binary64) (places : Nat) : List Char :=
  if x.isFinite then ofUnits (x.toPlaces places) places else notFinite x

/-- One digit before the point, `places` behind it, and the exponent of ten that scales them. -/
def scientific (x : Binary64) (places : Nat) : List Char × Int :=
  if x.isFinite then
    let d := x.toSignificant (places + 1)
    (ofUnits d.digits places, d.leading (places + 1))
  else (notFinite x, 0)

/-- Removes the zeros that end a fraction, and a point left without a fraction. -/
def stripFractionZeros (text : List Char) : List Char :=
  if text.contains '.' then
    let kept := text.reverse.dropWhile (· == '0')
    (kept.dropWhile (· == '.')).reverse
  else text

end ConfigExpr.DecimalText
