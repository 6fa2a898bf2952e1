import ConfigExpr.Host.Function

/-!
Taking arguments by position. A missing argument counts as null; one that does not coerce to what a
function needs is a failure of its type.
-/
namespace ConfigExpr.Standard

def wrongType (name : String) (index : Nat) (param expected : String) (v : Value) : CallFailure :=
  .argumentType name index param expected v.kind.name

def argument (args : List Value) (index : Nat) : Value :=
  args.getD index .null

def textArgument (name : String) (args : List Value) (index : Nat) (param : String) :
    Except CallFailure String :=
  match (argument args index).text? with
  | some text => .ok text
  | none => .error (wrongType name index param "string" (argument args index))

def bytesArgument (name : String) (args : List Value) (index : Nat) (param : String) :
    Except CallFailure (List UInt8) :=
  match (argument args index).bytes? with
  | some bytes => .ok bytes
  | none => .error (wrongType name index param "string" (argument args index))

/-- An integer that may be left out or null. -/
def integerArgument? (name : String) (args : List Value) (index : Nat) (param : String) :
    Except CallFailure (Option Int64) :=
  let v := argument args index
  if v.isNull then .ok none
  else
    match v.integer? with
    | some n => .ok (some n)
    | none => .error (wrongType name index param "?int" v)

def flagArgument (args : List Value) (index : Nat) : Bool :=
  (argument args index).isTruthy

def joinedText (name : String) (v : Value) : Except CallFailure String :=
  match v.text? with
  | some text => .ok text
  | none => .error (.failed name "Array to string conversion")

end ConfigExpr.Standard
