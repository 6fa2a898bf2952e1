import ConfigExpr.Evaluator.Error
import ConfigExpr.Expression.Basic
import ConfigExpr.Value.FloatText

/-!
Classification of documents by shape. An object with a `function` field is a call, whatever else it
holds; another object with a single field that names a known space is a reference; any other object
keeps its fields. Arrays are sequences and everything else is a literal. A container at or below the
depth limit is refused; the list of arguments counts as a container of its own.
-/
namespace ConfigExpr.Expression

def functionField : String :=
  "function"

def argumentsField : String :=
  "args"

structure Shape where
  isSpace : String → Bool
  maxDepth : Nat

def callName : Json → CallName
  | .string name => .named name
  | other => .invalid other.compact

def numberKey (n : JsonNumber) : String :=
  match Value.ofNumber n with
  | .float x => x.text
  | .integer i => Json.integerText i.toInt
  | _ => Json.numberText n

def referenceKey : Json → ReferenceKey
  | .string key => .key key
  | .number n => .key (numberKey n)
  | other => .invalid other.compact

/-- The reference that an object of a single field may be. -/
def reference? (isSpace : String → Bool) : List (String × Json) → Option Expression
  | [(space, key)] =>
    if isSpace space then some (.reference space (referenceKey key)) else none
  | _ => none

/-- Refuses a container at the given depth. -/
def checkDepth (shape : Shape) (depth : Nat) : Except EvalError Unit :=
  if shape.maxDepth ≤ depth then .error (.depthExceeded shape.maxDepth) else .ok ()

mutual

def classifyAt (shape : Shape) (depth : Nat) : Json → Except EvalError Expression
  | .array items => do
    checkDepth shape depth
    let items ← classifyItems shape (depth + 1) items
    return .sequence items
  | .object fields => do
    checkDepth shape depth
    match Fields.find? fields functionField with
    | some name => classifyCall shape (depth + 1) (callName name) fields
    | none =>
      match reference? shape.isSpace fields with
      | some found => return found
      | none =>
        let fields ← classifyFields shape (depth + 1) fields
        return .object fields
  | .null => return .scalar .null
  | .bool b => return .scalar (.bool b)
  | .number n => return .scalar (.ofNumber n)
  | .string s => return .scalar (.string s)

def classifyItems (shape : Shape) (depth : Nat) : List Json → Except EvalError (List Expression)
  | [] => return []
  | item :: rest => do
    let item ← classifyAt shape depth item
    let rest ← classifyItems shape depth rest
    return item :: rest

def classifyFields (shape : Shape) (depth : Nat) :
    List (String × Json) → Except EvalError (List (String × Expression))
  | [] => return []
  | (name, item) :: rest => do
    let item ← classifyAt shape depth item
    let rest ← classifyFields shape depth rest
    return (name, item) :: rest

/-- The call whose arguments are in the first arguments field of an object, if it has one. -/
def classifyCall (shape : Shape) (depth : Nat) (name : CallName) :
    List (String × Json) → Except EvalError Expression
  | [] => return .call name []
  | (key, item) :: rest =>
    if key = argumentsField then classifyArguments shape depth name item
    else classifyCall shape depth name rest

/-- Arguments come in an array, or in an object whose names do not count; null stands for none. -/
def classifyArguments (shape : Shape) (depth : Nat) (name : CallName) :
    Json → Except EvalError Expression
  | .null => return .call name []
  | .array items => do
    checkDepth shape depth
    let args ← classifyItems shape (depth + 1) items
    return .call name args
  | .object fields => do
    checkDepth shape depth
    let args ← classifyFields shape (depth + 1) fields
    return .call name (args.map Prod.snd)
  | .bool _ | .number _ | .string _ => return .callWithoutList name

end

def classify (shape : Shape) (document : Json) : Except EvalError Expression :=
  classifyAt shape 0 document

end ConfigExpr.Expression
