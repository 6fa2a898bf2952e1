import ConfigExpr.Number.Power

/-!
Rounding a quotient of natural numbers to a whole number. The nearest whole number wins and a half
goes to the even neighbour.
-/
namespace ConfigExpr.Number

def roundHalfEven (numerator denominator : Nat) : Nat :=
  let quotient := numerator / denominator
  let rest := numerator % denominator
  if 2 * rest > denominator || (2 * rest == denominator && quotient % 2 == 1) then quotient + 1
  else quotient

def digitCount (n : Nat) : Nat :=
  (Nat.toDigits 10 n).length

end ConfigExpr.Number
