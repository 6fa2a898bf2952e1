import ConfigExpr.Evaluator.Builtin
import ConfigExpr.Evaluator.Config
import ConfigExpr.Expression.Classify
import ConfigExpr.Parameters

/-!
Evaluation of expressions. A tree is walked once, arguments are evaluated from left to right before
the call that takes them, and the first failure ends the run. A call is checked in this order: the
name against the allowlist, the form of the arguments, the arguments themselves, and then the
function, where those of the evaluator come before those of the host.
-/
namespace ConfigExpr

structure Evaluator where
  allowed : Allowlist
  functions : HostFunctions
  config : Config

namespace Evaluator

def new (config : Config) (functions : HostFunctions) : Evaluator :=
  ⟨Allowlist.ofList config.allowed, functions, config⟩

def allow (e : Evaluator) (name : String) : Evaluator :=
  { e with allowed := e.allowed.allow name }

def deny (e : Evaluator) (name : String) : Evaluator :=
  { e with allowed := e.allowed.deny name }

def isCallable (e : Evaluator) (name : String) : Bool :=
  (Builtin.ofName? name).isSome || e.functions.contains name

def unavailable (e : Evaluator) : List String :=
  e.allowed.filter fun name => !e.isCallable name

/-- The name of a call, if it may be called. -/
def allowedName (e : Evaluator) : CallName → Except EvalError String
  | .named name => if e.allowed.allows name then .ok name else .error (.illegalFunction name)
  | .invalid json => .error (.illegalFunction json)

def resolve (params : Parameters) (space : String) : ReferenceKey → Except EvalError Value
  | .invalid json => .error (.invalidReference space json)
  | .key key =>
    match params.get? space key with
    | some v => .ok v
    | none => .error (.referenceNotFound space key)

def apply (e : Evaluator) (name : String) (args : List Value) : Except EvalError Value :=
  match Builtin.ofName? name with
  | some f => f.call args
  | none =>
    match e.functions.invoke name args e.config.context with
    | .ok v => .ok v
    | .error failure => .error (.functionFailure name failure)

mutual

def evaluate (e : Evaluator) (params : Parameters) : Expression → Except EvalError Value
  | .scalar v => return v
  | .sequence items => do
    let values ← evaluateItems e params items
    return .array values
  | .object fields => do
    let fields ← evaluateFields e params fields
    return .object fields
  | .reference space key => resolve params space key
  | .call name args => do
    let name ← e.allowedName name
    let args ← evaluateItems e params args
    e.apply name args
  | .callWithoutList name => do
    let name ← e.allowedName name
    throw (.invalidArguments name)

def evaluateItems (e : Evaluator) (params : Parameters) :
    List Expression → Except EvalError (List Value)
  | [] => return []
  | item :: rest => do
    let v ← evaluate e params item
    let values ← evaluateItems e params rest
    return v :: values

def evaluateFields (e : Evaluator) (params : Parameters) :
    List (String × Expression) → Except EvalError (List (String × Value))
  | [] => return []
  | (name, item) :: rest => do
    let v ← evaluate e params item
    let fields ← evaluateFields e params rest
    return (name, v) :: fields

end

def classify (e : Evaluator) (params : Parameters) (tree : Json) : Except EvalError Expression :=
  Expression.classify ⟨params.hasSpace, e.config.maxDepth⟩ tree

def runWith (e : Evaluator) (params : Parameters) (tree : Json) : Except EvalError Value := do
  let expression ← e.classify params tree
  e.evaluate params expression

def run (e : Evaluator) (tree params : Json) : Except EvalError Value := do
  let params ← Parameters.ofJson params
  e.runWith params tree

end Evaluator

end ConfigExpr
