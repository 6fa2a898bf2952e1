import ConfigExpr.Json.Parser
import ConfigExpr.Value.Kind

/-!
Signatures of functions: the parameters with their kinds, the kind of the result, and the counts of
arguments that are accepted. In a variadic signature the last parameter describes every further
argument.
-/
namespace ConfigExpr

structure Parameter where
  name : String
  kind : Kind
  optional : Bool
deriving DecidableEq, Repr

structure Signature where
  name : String
  parameters : List Parameter
  returns : Kind
  least : Nat
  /-- No value stands for any number of arguments. -/
  most : Option Nat
deriving DecidableEq, Repr

namespace Parameter

def required (name : String) (kind : Kind) : Parameter :=
  ⟨name, kind, false⟩

def allowed (name : String) (kind : Kind) : Parameter :=
  ⟨name, kind, true⟩

def text (p : Parameter) : String :=
  let shown := p.kind.name ++ " $" ++ p.name
  if p.optional then "[" ++ shown ++ "]" else shown

def toJson (p : Parameter) : Json :=
  .object [("name", .string p.name), ("param_type", .string p.kind.tag),
    ("optional", .bool p.optional)]

def ofJson? : Json → Option Parameter
  | .object fields =>
    match Fields.find? fields "name", Fields.find? fields "param_type",
      Fields.find? fields "optional" with
    | some (.string name), some (.string tag), some (.bool optional) =>
      (Kind.ofTag? tag).map fun kind => ⟨name, kind, optional⟩
    | _, _, _ => none
  | _ => none

end Parameter

namespace Signature

/-- Parameters that are not optional set the least count. -/
def leastOf (parameters : List Parameter) : Nat :=
  (parameters.filter fun p => !p.optional).length

def fixed (name : String) (parameters : List Parameter) (returns : Kind) : Signature :=
  ⟨name, parameters, returns, leastOf parameters, some parameters.length⟩

def variadic (name : String) (parameters : List Parameter) (returns : Kind) : Signature :=
  ⟨name, parameters, returns, leastOf parameters, none⟩

def parameter? (s : Signature) (index : Nat) : Option Parameter :=
  match s.parameters[index]? with
  | some p => some p
  | none => if s.most.isNone then s.parameters.getLast? else none

def acceptsCount (s : Signature) (count : Nat) : Bool :=
  s.least ≤ count && match s.most with
    | none => true
    | some most => count ≤ most

def text (s : Signature) : String :=
  let shown := String.intercalate ", " (s.parameters.map Parameter.text)
  let more := if s.most.isNone then ", ..." else ""
  s.name ++ "(" ++ shown ++ more ++ "): " ++ s.returns.name

def toJson (s : Signature) : Json :=
  .object [("name", .string s.name), ("parameters", .array (s.parameters.map Parameter.toJson)),
    ("return_type", .string s.returns.tag), ("min_arity", .integer s.least),
    ("max_arity", match s.most with | none => .null | some most => .integer most)]

def countOfJson? : Json → Option Nat
  | .number (.integer n) => if 0 ≤ n then some n.toNat else none
  | _ => none

/-- Reads the most arguments, where null stands for any number. -/
def mostOfJson? : Json → Option (Option Nat)
  | .null => some none
  | other => (countOfJson? other).map some

def ofJson? : Json → Option Signature
  | .object fields => do
    let name ← Fields.find? fields "name"
    let parameters ← Fields.find? fields "parameters"
    let returns ← Fields.find? fields "return_type"
    let least ← Fields.find? fields "min_arity"
    let most ← Fields.find? fields "max_arity"
    match name, parameters, returns with
    | .string name, .array parameters, .string returns =>
      return ⟨name, ← parameters.mapM Parameter.ofJson?, ← Kind.ofTag? returns,
        ← countOfJson? least, ← mostOfJson? most⟩
    | _, _, _ => none
  | _ => none

def parse? (text : String) : Option Signature :=
  match Json.parse text with
  | .ok document => ofJson? document
  | .error _ => none

end Signature

end ConfigExpr
