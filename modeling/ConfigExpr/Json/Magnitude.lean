import ConfigExpr.Number.Arithmetic

/-!
The floats that numbers in documents stand for. The leading digits of a number form a significand of
64 bits and the remaining ones only count for its size; the significand is rounded and then scaled
by a power of ten that is rounded itself. So the result may miss the float nearest to the number as
written.
-/
namespace ConfigExpr.Json

/-- Appends digits to a significand while it stays within 64 bits; gives it with the digits that
are left. -/
def appendDigits : (significand : Nat) → List Nat → Nat × List Nat
  | significand, [] => (significand, [])
  | significand, digit :: rest =>
    let next := significand * 10 + digit
    if next < 2 ^ 64 then appendDigits next rest else (significand, digit :: rest)

structure Magnitude where
  significand : Nat
  exponent : Int
deriving DecidableEq, Repr

namespace Magnitude

/-- Digits before the point that do not fit into the significand raise the exponent. Those behind
the point lower it if they fit and are dropped otherwise. -/
def ofDigits (whole fraction : List Nat) : Magnitude :=
  let (significand, dropped) := appendDigits 0 whole
  let (significand, unread) := appendDigits significand fraction
  ⟨significand, (dropped.length : Int) - (fraction.length - unread.length : Nat)⟩

def powerOfTen (exponent : Nat) : Binary64 :=
  .ofDecimal false 1 exponent

/-- The largest power of ten within the range of floats has this exponent. -/
def maxPower : Nat :=
  308

/-- Divides by the largest power of ten, as often as given. -/
def lower : (times : Nat) → Binary64 → Binary64
  | 0, x => x
  | times + 1, x => lower times (x.div (powerOfTen maxPower))

/-- The float of a magnitude; infinite if it is out of range. A significand that has been divided
twice by the largest power of ten is zero. -/
def toFloat (m : Magnitude) : Binary64 :=
  let x := Binary64.ofRatio false m.significand 1
  if m.significand = 0 then x
  else if (maxPower : Int) < m.exponent then .infinity false
  else if 0 ≤ m.exponent then x.mul (powerOfTen m.exponent.toNat)
  else
    let places := m.exponent.natAbs
    let divisions := (places - 1) / maxPower
    (lower (min divisions 2) x).div (powerOfTen (places - divisions * maxPower))

def toSignedFloat (m : Magnitude) (negative : Bool) : Binary64 :=
  if negative then m.toFloat.neg else m.toFloat

end Magnitude

end ConfigExpr.Json
