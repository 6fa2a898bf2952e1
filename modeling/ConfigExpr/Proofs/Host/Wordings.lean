import ConfigExpr.Proofs.Host.Validation
import Mathlib.Data.List.Basic

/-!
What the wording of a failure tells of it. No other failure is worded like the call of an undefined
function, but for that of a function whose name holds a colon and which tells of another function
than itself.
-/
namespace ConfigExpr

namespace CallFailure
variable {failure : CallFailure} {name other : String}

def about : CallFailure → String
  | arity name _ _ _ | argumentType name _ _ _ _ | failed name _ | crash name _ | undefined name =>
    name

theorem message_undefined (name : String) :
    (undefined name).message = "Call to undefined function " ++ name ++ "()" := rfl

theorem message_failed (name reason : String) :
    (failed name reason).message = name ++ "(): " ++ reason := rfl

theorem message_undefined_inj (same : (undefined other).message = (undefined name).message) :
    other = name := by
  have chars := congrArg String.toList same
  simp only [message_undefined, String.toList_append] at chars
  exact String.toList_inj.mp (List.append_cancel_left (List.append_cancel_right chars))

theorem given_ne_undefined (text name : String) : text ++ " given" ≠ (undefined name).message := by
  intro same
  have ends := congrArg (fun text => text.toList.getLast?) same
  simp only [message_undefined, String.toList_append, List.getLast?_append] at ends
  have letters : some 'n' = some ')' := ends
  exact absurd letters (by decide)

theorem count_colon_lt {reason : String}
    (same : (failed other reason).message = (undefined name).message) :
    other.toList.count ':' < name.toList.count ':' := by
  have counted := congrArg (fun text => text.toList.count ':') same
  simp only [message_failed, message_undefined, String.toList_append, List.count_append] at counted
  have before : "Call to undefined function ".toList.count ':' = 0 := by decide
  have behind : "()".toList.count ':' = 0 := by decide
  have between : "(): ".toList.count ':' = 1 := by decide
  omega

theorem message_eq_undefined_iff (plain : ':' ∉ name.toList ∨ failure.about = name) :
    failure.message = (undefined name).message ↔ failure = .undefined name := by
  refine ⟨fun same => ?_, fun same => congrArg message same⟩
  cases failure with
  | arity other least most actual => exact (given_ne_undefined _ name same).elim
  | argumentType other index param expected actual => exact (given_ne_undefined _ name same).elim
  | undefined other => rw [message_undefined_inj same]
  | failed other reason | crash other reason =>
    have fewer := count_colon_lt same
    rcases plain with none | rfl
    · rw [List.count_eq_zero.mpr none] at fewer
      exact (Nat.not_lt_zero _ fewer).elim
    · exact (Nat.lt_irrefl _ fewer).elim

end CallFailure

namespace HostFunction
variable {other : String}

/-- Some failure of the function is worded like the call of an undefined function of its name. -/
def ReportsUndefined (f : HostFunction) : Prop :=
  ∃ args context failure, f.call args context = .error failure ∧
    failure.message = (CallFailure.undefined f.name).message

/-- All failures of the function tell of itself. -/
def FailsAsItself (f : HostFunction) : Prop :=
  ∀ args context failure, f.call args context = .error failure → failure.about = f.name

theorem reportsUndefined_iff {f : HostFunction}
    (plain : ':' ∉ f.name.toList ∨ f.FailsAsItself) :
    f.ReportsUndefined ↔ ∃ args context, f.call args context = .error (.undefined f.name) := by
  constructor
  · rintro ⟨args, context, failure, failed, worded⟩
    have own : ':' ∉ f.name.toList ∨ failure.about = f.name :=
      plain.imp_right fun itself => itself args context failure failed
    rw [CallFailure.message_eq_undefined_iff own] at worded
    exact ⟨args, context, worded ▸ failed⟩
  · rintro ⟨args, context, failed⟩
    exact ⟨args, context, _, failed, rfl⟩

theorem failsAsItself_of_body {f : HostFunction}
    (own : ∀ args context failure, validate f.signature args = .ok () →
      f.body args context = .error failure → failure.about = f.name) : f.FailsAsItself := by
  intro args context failure failed
  rcases call_eq_error_iff.mp failed with rejected | ⟨passed, failed⟩
  · cases rejected with
    | count miscounts | kind counted first => rfl
  · exact own args context failure passed failed

theorem call_ne_undefined {f : HostFunction} {args : List Value} {context : Context}
    (own : validate f.signature args = .ok () → f.body args context ≠ .error (.undefined other)) :
    f.call args context ≠ .error (.undefined other) := by
  intro failed
  rcases call_eq_error_iff.mp failed with rejected | ⟨passed, failed⟩
  · cases rejected
  · exact own passed failed

theorem not_reportsUndefined_of_body {f : HostFunction}
    (own : ∀ args context failure, validate f.signature args = .ok () →
      f.body args context = .error failure →
        failure.about = f.name ∧ failure ≠ .undefined f.name) : ¬ f.ReportsUndefined := by
  have itself : f.FailsAsItself := failsAsItself_of_body fun args context failure passed failed =>
    (own args context failure passed failed).1
  rw [reportsUndefined_iff (.inr itself)]
  rintro ⟨args, context, failed⟩
  exact call_ne_undefined (fun passed failed => (own args context _ passed failed).2 rfl) failed

end HostFunction

end ConfigExpr
