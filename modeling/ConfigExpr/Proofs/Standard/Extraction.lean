import ConfigExpr.Proofs.Host.Validation
import ConfigExpr.Proofs.Outcome
import ConfigExpr.Proofs.Value.Scalars
import ConfigExpr.Standard.Arguments

/-!
Plans of what a function takes from its arguments, one after the other, until it gives a result,
fails for a reason of its own or stops the program. A step of a plan says which parameter describes
what it takes, so a plan belongs to a signature. On arguments that passed the check against this
signature every step finds what it takes, and nothing is read beyond the arguments.
-/
namespace ConfigExpr.Standard
open Outcome Value

section Arguments
variable {args : List Value} {index : Nat} {v : Value}

theorem argument_of_getElem? (held : args[index]? = some v) : argument args index = v := by
  rw [argument, List.getD_eq_getElem?_getD, held, Option.getD_some]

theorem argument_of_length_le (missing : args.length ≤ index) : argument args index = .null := by
  rw [argument, List.getD_eq_getElem?_getD, List.getElem?_eq_none missing, Option.getD_none]

end Arguments

/-- Raw values are taken only where the parameter allows any value. -/
inductive Extraction (s : Signature) where
  | result (v : Value)
  | failure (reason : String)
  | crash (reason : String)
  | text (index : Nat) (param : String) (required : index < s.least)
      (described : s.parameter? index = some (.required param .string))
      (next : String → Extraction s)
  | bytes (index : Nat) (param : String) (required : index < s.least)
      (described : s.parameter? index = some (.required param .string))
      (next : List UInt8 → Extraction s)
  | integer (index : Nat) (param : String)
      (described : s.parameter? index = some (.allowed param .integer))
      (next : Option Int64 → Extraction s)
  | textIfGiven (index : Nat) (param : String)
      (described : s.parameter? index = some (.allowed param .string))
      (next : Option String → Extraction s)
  | flag (index : Nat) (param : String)
      (described : s.parameter? index = some (.allowed param .boolean))
      (next : Bool → Extraction s)
  | value (index : Nat) (param : String) (required : index < s.least)
      (described : s.parameter? index = some (.required param .any))
      (next : Value → Extraction s)
  /-- All arguments from an index on. -/
  | values (index : Nat) (param : String) (required : index ≤ s.least)
      (described : ∀ further, s.parameter? (further + index) = some (.allowed param .any))
      (next : List Value → Extraction s)

namespace Extraction
variable {s : Signature} {args : List Value} {index : Nat} {param : String}

def run (args : List Value) : Extraction s → CallResult
  | result v => .ok v
  | failure reason => .error (.failed s.name reason)
  | crash reason => .error (.crash s.name reason)
  | text index param _ _ next => do
    let text ← textArgument s.name args index param
    (next text).run args
  | bytes index param _ _ next => do
    let bytes ← bytesArgument s.name args index param
    (next bytes).run args
  | integer index param _ next => do
    let n ← integerArgument? s.name args index param
    (next n).run args
  | textIfGiven index param _ next =>
    if args.length ≤ index then (next none).run args
    else do
      let text ← textArgument s.name args index param
      (next (some text)).run args
  | flag index _ _ next => (next (flagArgument args index)).run args
  | value index _ _ _ next => (next (argument args index)).run args
  | values index _ _ _ next => (next (args.drop index)).run args

/-- Every step that a run comes to finds what it takes, among the arguments that are there. -/
def Succeeds (args : List Value) : Extraction s → Prop
  | result _ | failure _ | crash _ => True
  | text index param _ _ next =>
    index < args.length ∧
      ∃ text, textArgument s.name args index param = .ok text ∧ (next text).Succeeds args
  | bytes index param _ _ next =>
    index < args.length ∧
      ∃ bytes, bytesArgument s.name args index param = .ok bytes ∧ (next bytes).Succeeds args
  | integer index param _ next =>
    ∃ n, integerArgument? s.name args index param = .ok n ∧ (next n).Succeeds args
  | textIfGiven index param _ next =>
    if args.length ≤ index then (next none).Succeeds args
    else ∃ text, textArgument s.name args index param = .ok text ∧ (next (some text)).Succeeds args
  | flag index _ _ next => (next (flagArgument args index)).Succeeds args
  | value index _ _ _ next => ∃ v, args[index]? = some v ∧ (next v).Succeeds args
  | values index _ _ _ next => index ≤ args.length ∧ (next (args.drop index)).Succeeds args

section Steps
variable (passed : HostFunction.validate s args = .ok ())
include passed

theorem least_le_length : s.least ≤ args.length := by
  obtain ⟨counted, -⟩ := HostFunction.validate_eq_ok_iff.mp passed
  exact Nat.le_of_not_lt fun fewer => counted (.inl fewer)

theorem accepts_argument {p : Parameter} (described : s.parameter? index = some p)
    (inside : index < args.length) : p.kind.accepts (argument args index) = true := by
  have held : args[index]? = some args[index] := List.getElem?_eq_getElem inside
  obtain ⟨-, accepted⟩ := HostFunction.validate_eq_ok_iff.mp passed
  rw [argument_of_getElem? held]
  by_contra refused
  exact accepted index p _
    ⟨held, Signature.parameter?_eq_some_iff.mp described, eq_false_of_ne_true refused⟩

theorem exists_textArgument {p : Parameter} (described : s.parameter? index = some p)
    (takesText : p.kind = .string) (inside : index < args.length) :
    ∃ text, textArgument s.name args index param = .ok text := by
  have scalar := accepts_argument passed described inside
  rw [takesText] at scalar
  exact ⟨_, by rw [textArgument, text?_of_isScalar scalar]⟩

theorem exists_bytesArgument {p : Parameter} (described : s.parameter? index = some p)
    (takesText : p.kind = .string) (inside : index < args.length) :
    ∃ bytes, bytesArgument s.name args index param = .ok bytes := by
  have scalar := accepts_argument passed described inside
  rw [takesText] at scalar
  exact ⟨_, by rw [bytesArgument, bytes?_of_isScalar scalar]⟩

theorem exists_integerArgument? {p : Parameter} (described : s.parameter? index = some p)
    (takesInteger : p.kind = .integer) :
    ∃ n, integerArgument? s.name args index param = .ok n := by
  rw [integerArgument?]
  by_cases inside : index < args.length
  · have numeric := accepts_argument passed described inside
    rw [takesInteger] at numeric
    obtain ⟨n, read⟩ := Option.isSome_iff_exists.mp numeric
    rw [read]
    dsimp only
    split
    next => exact ⟨none, rfl⟩
    next => exact ⟨some n, rfl⟩
  · rw [argument_of_length_le (Nat.le_of_not_lt inside)]
    exact ⟨none, rfl⟩

end Steps

theorem succeeds_of_validate (passed : HostFunction.validate s args = .ok ())
    (plan : Extraction s) : plan.Succeeds args := by
  have counted := least_le_length passed
  induction plan with
  | result v | failure reason | crash reason => exact trivial
  | text index param required described next ih =>
    have inside : index < args.length := Nat.lt_of_lt_of_le required counted
    obtain ⟨text, taken⟩ := exists_textArgument passed described rfl inside
    exact ⟨inside, text, taken, ih text⟩
  | bytes index param required described next ih =>
    have inside : index < args.length := Nat.lt_of_lt_of_le required counted
    obtain ⟨bytes, taken⟩ := exists_bytesArgument passed described rfl inside
    exact ⟨inside, bytes, taken, ih bytes⟩
  | integer index param described next ih =>
    obtain ⟨n, taken⟩ := exists_integerArgument? passed described rfl
    exact ⟨n, taken, ih n⟩
  | textIfGiven index param described next ih =>
    rw [Succeeds]
    split
    next => exact ih none
    next given =>
      obtain ⟨text, taken⟩ := exists_textArgument passed described rfl (Nat.lt_of_not_le given)
      exact ⟨text, taken, ih (some text)⟩
  | flag index param described next ih => exact ih _
  | value index param required described next ih =>
    have inside : index < args.length := Nat.lt_of_lt_of_le required counted
    exact ⟨args[index], List.getElem?_eq_getElem inside, ih _⟩
  | values index param required described next ih =>
    exact ⟨Nat.le_trans required counted, ih _⟩

theorem own_of_succeeds {plan : Extraction s} (succeeds : plan.Succeeds args)
    {failure : CallFailure} (failed : plan.run args = .error failure) :
    ∃ reason, failure = .failed s.name reason ∨ failure = .crash s.name reason := by
  induction plan with
  | result v => cases failed
  | failure reason => exact ⟨reason, .inl (Except.error.inj failed).symm⟩
  | crash reason => exact ⟨reason, .inr (Except.error.inj failed).symm⟩
  | text index param required described next ih =>
    obtain ⟨-, text, taken, later⟩ := succeeds
    rw [run, taken, ok_bind] at failed
    exact ih text later failed
  | bytes index param required described next ih =>
    obtain ⟨-, bytes, taken, later⟩ := succeeds
    rw [run, taken, ok_bind] at failed
    exact ih bytes later failed
  | integer index param described next ih =>
    obtain ⟨n, taken, later⟩ := succeeds
    rw [run, taken, ok_bind] at failed
    exact ih n later failed
  | textIfGiven index param described next ih =>
    rw [run] at failed
    rw [Succeeds] at succeeds
    split at failed
    next missing =>
      rw [if_pos missing] at succeeds
      exact ih none succeeds failed
    next given =>
      rw [if_neg given] at succeeds
      obtain ⟨text, taken, later⟩ := succeeds
      rw [taken, ok_bind] at failed
      exact ih (some text) later failed
  | flag index param described next ih => exact ih _ succeeds failed
  | value index param required described next ih =>
    obtain ⟨v, held, later⟩ := succeeds
    rw [run, argument_of_getElem? held] at failed
    exact ih v later failed
  | values index param required described next ih => exact ih _ succeeds.2 failed

end Extraction

end ConfigExpr.Standard
