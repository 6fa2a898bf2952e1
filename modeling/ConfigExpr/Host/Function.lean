import ConfigExpr.Host.Failure
import ConfigExpr.Host.Signature

/-!
Functions of the host and catalogues of them. A function checks its arguments against its signature
before its body sees them. The evaluator knows a catalogue only by the capability to invoke a name
and to ask whether a name exists.
-/
namespace ConfigExpr

structure Context where
  /-- Seconds east of UTC in which local dates are read and shown. -/
  offset : Int
  /-- The current time in seconds since 1970-01-01. -/
  now : Int
deriving DecidableEq, Repr

abbrev CallResult := Except CallFailure Value

structure HostFunction where
  signature : Signature
  documentation : String
  /-- The result depends on the arguments alone. -/
  isPure : Bool
  body : List Value → Context → CallResult

namespace HostFunction

def name (f : HostFunction) : String :=
  f.signature.name

/-- Checks the arguments from an index on against the parameters that describe them. -/
def checkKinds (s : Signature) (index : Nat) : List Value → Except CallFailure Unit
  | [] => .ok ()
  | arg :: rest =>
    match s.parameter? index with
    | none => checkKinds s (index + 1) rest
    | some p =>
      if p.kind.accepts arg then checkKinds s (index + 1) rest
      else .error (.argumentType s.name index p.name p.kind.name arg.kind.name)

/-- Checks the count of the arguments first and then their kinds from left to right. -/
def validate (s : Signature) (args : List Value) : Except CallFailure Unit :=
  if s.acceptsCount args.length then checkKinds s 0 args
  else .error (.arity s.name s.least s.most args.length)

def call (f : HostFunction) (args : List Value) (context : Context) : CallResult :=
  match validate f.signature args with
  | .ok () => f.body args context
  | .error failure => .error failure

end HostFunction

structure HostFunctions where
  invoke : String → List Value → Context → CallResult
  contains : String → Bool

structure Catalogue where
  functions : Fields HostFunction

namespace Catalogue

def empty : Catalogue :=
  ⟨[]⟩

/-- Adds a function, in place of an earlier one of its name. -/
def register (c : Catalogue) (f : HostFunction) : Catalogue :=
  ⟨Fields.insert c.functions f.name f⟩

def ofList (functions : List HostFunction) : Catalogue :=
  functions.foldl register empty

def find? (c : Catalogue) (name : String) : Option HostFunction :=
  Fields.find? c.functions name

def contains (c : Catalogue) (name : String) : Bool :=
  (c.find? name).isSome

def size (c : Catalogue) : Nat :=
  c.functions.length

def names (c : Catalogue) : List String :=
  c.functions.names.mergeSort fun a b => a ≤ b

def invoke (c : Catalogue) (name : String) (args : List Value) (context : Context) : CallResult :=
  match c.find? name with
  | none => .error (.undefined name)
  | some f => f.call args context

def hostFunctions (c : Catalogue) : HostFunctions :=
  ⟨c.invoke, c.contains⟩

end Catalogue

end ConfigExpr
