import ConfigExpr.Evaluator.Error
import ConfigExpr.Host.Failure
import ConfigExpr.Value.Coercion

/-!
The functions of the evaluator itself. They come before the functions of the host, and are allowed
and denied like those.
-/
namespace ConfigExpr

inductive Builtin where
  | concat
  /-- The first argument unless it is empty, and else the second. -/
  | ifEmpty
deriving DecidableEq, Repr

namespace Builtin

def all : List Builtin :=
  [.concat, .ifEmpty]

def name : Builtin → String
  | .concat => "concat"
  | .ifEmpty => "ifempty"

def ofName? (name : String) : Option Builtin :=
  all.find? fun f => f.name == name

def isBytes : Value → Bool
  | .bytes _ => true
  | _ => false

/-- The bytes of all arguments in order, if none is a container. -/
def joinBytes? (args : List Value) : Option (List UInt8) :=
  (args.mapM Value.bytes?).map List.flatten

def notJoined : CallFailure :=
  .failed "concat" "Array to string conversion"

/-- Joins bytes as bytes if one argument is bytes, and texts as text. -/
def concatenate (args : List Value) : Except EvalError Value :=
  match joinBytes? args with
  | none => .error (.functionFailure "concat" notJoined)
  | some joined =>
    if args.any isBytes then .ok (.bytes joined) else .ok (.string (Utf8.decodeLossy joined))

def fallback : List Value → Except EvalError Value
  | [v, other] => .ok (if v.isEmpty then other else v)
  | _ => .error (.badArgumentCount "ifempty")

def call : Builtin → List Value → Except EvalError Value
  | .concat => concatenate
  | .ifEmpty => fallback

end Builtin

end ConfigExpr
