import ConfigExpr.Text.Numeral

/-!
Why a function of the host fails, and how the failure is worded.
-/
namespace ConfigExpr

inductive CallFailure where
  /-- The number of arguments is below the least or above the most, if there is a most. -/
  | arity (name : String) (least : Nat) (most : Option Nat) (actual : Nat)
  /-- The argument at an index, counted from zero, is of a kind that its parameter refuses. -/
  | argumentType (name : String) (index : Nat) (param expected actual : String)
  | failed (name : String) (reason : String)
  | undefined (name : String)
  /-- The function stops the program, so that nobody is told. -/
  | crash (name : String) (reason : String)
deriving DecidableEq, Repr

namespace CallFailure

def number (n : Nat) : String :=
  String.ofList (Numeral.ofNat n)

/-- A count that is exceeded is the most, and a count that is missed is the least. -/
def arityMessage (name : String) (least : Nat) (most : Option Nat) (actual : Nat) : String :=
  let most' := most.getD actual
  let (qualifier, expected) :=
    if actual < least then (if most = some least then "exactly" else "at least", least)
    else (if most' = least then "exactly" else "at most", most')
  let noun := if expected = 1 then "parameter" else "parameters"
  name ++ "() expects " ++ qualifier ++ " " ++ number expected ++ " " ++ noun ++ ", " ++
    number actual ++ " given"

def message : CallFailure → String
  | .arity name least most actual => arityMessage name least most actual
  | .argumentType name index param expected actual =>
    name ++ "(): Argument #" ++ number (index + 1) ++ " ($" ++ param ++ ") must be of type " ++
      expected ++ ", " ++ actual ++ " given"
  | .failed name reason | .crash name reason => name ++ "(): " ++ reason
  | .undefined name => "Call to undefined function " ++ name ++ "()"

end CallFailure

end ConfigExpr
