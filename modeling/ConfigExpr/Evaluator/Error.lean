import ConfigExpr.Host.Failure

/-!
Why an evaluation fails. Every cause lies in the expression or the parameters, so every error is one
of the user and carries the same status. Only a function that crashes is different: the program ends
with it and reports nothing.
-/
namespace ConfigExpr

inductive EvalError where
  /-- The function is not allowed, or its name is no text and shown as JSON. -/
  | illegalFunction (name : String)
  /-- The key of a reference is neither text nor number and shown as JSON. -/
  | invalidReference (space : String) (key : String)
  | referenceNotFound (space : String) (key : String)
  | badArgumentCount (name : String)
  /-- The parameters, or the ones in a named space, form no table. -/
  | malformedParameters (space : String)
  | functionFailure (name : String) (failure : CallFailure)
  | invalidArguments (name : String)
  | depthExceeded (limit : Nat)
deriving DecidableEq, Repr

namespace EvalError

def message : EvalError → String
  | .illegalFunction name => "Illegal function '" ++ name ++ "'!"
  | .invalidReference space key =>
    "Error evaluating user function - " ++ space ++ " '" ++ key ++ "' is not a string!"
  | .referenceNotFound space key =>
    "Error evaluating user function - " ++ space ++ " '" ++ key ++ "' not found!"
  | .badArgumentCount name => "Bad argument count for function '" ++ name ++ "'!"
  | .malformedParameters _ => "The params for code builder must be an array of arrays!"
  | .functionFailure _ failure => failure.message
  | .invalidArguments name => "Arguments of function '" ++ name ++ "' must be an array!"
  | .depthExceeded limit =>
    "Expression nesting exceeds the maximum depth of " ++
      String.ofList (Numeral.ofNat limit) ++ "!"

def status (_ : EvalError) : Nat :=
  400

def isUserError (_ : EvalError) : Bool :=
  true

end EvalError

end ConfigExpr
