import ConfigExpr.Proofs.Evaluator.Availability
import ConfigExpr.Proofs.Standard.ValidatedArguments

/-!
Failures of the standard functions. Each tells of the function that was called and of nothing that
is undefined, so with the standard catalogue a call is undefined exactly if its name is unavailable.
-/
namespace ConfigExpr.Standard
open Outcome

/-- A failure of a function that is there. -/
def TellsOf (name : String) (failure : CallFailure) : Prop :=
  failure.about = name ∧ failure ≠ .undefined name

section Implode
variable {args : List Value} {failure : CallFailure}

theorem tellsOf_of_textArgument {name param : String} {index : Nat}
    (failed : textArgument name args index param = .error failure) : TellsOf name failure := by
  rw [textArgument] at failed
  split at failed
  next => cases failed
  next =>
    cases failed
    exact ⟨rfl, by simp [wrongType]⟩

theorem tellsOf_of_elements {index : Nat} {v : Value}
    (failed : elements index v = .error failure) : TellsOf "implode" failure := by
  rw [elements.eq_def] at failed
  split at failed
  next => cases failed
  next => cases failed
  next =>
    cases failed
    exact ⟨rfl, by simp [wrongType]⟩

theorem tellsOf_of_joinAll {separator : String} {items : List Value}
    (failed : joinAll separator items = .error failure) : TellsOf "implode" failure := by
  rcases bind_eq_error.mp failed with failed | ⟨texts, -, done⟩
  · obtain ⟨v, -, failed⟩ := exists_of_mapM_eq_error failed
    rw [joinedText] at failed
    split at failed
    next => cases failed
    next =>
      cases failed
      exact ⟨rfl, by simp⟩
  · cases done

theorem tellsOf_of_implode {context : Context}
    (failed : implode.body args context = .error failure) : TellsOf "implode" failure := by
  simp only [implode] at failed
  split at failed
  next =>
    rcases bind_eq_error.mp failed with separator | ⟨text, -, failed⟩
    · exact tellsOf_of_textArgument separator
    · rcases bind_eq_error.mp failed with pieces | ⟨items, -, joined⟩
      · exact tellsOf_of_elements pieces
      · exact tellsOf_of_joinAll joined
  next =>
    rcases bind_eq_error.mp failed with pieces | ⟨items, -, joined⟩
    · exact tellsOf_of_elements pieces
    · exact tellsOf_of_joinAll joined

end Implode

theorem nodup_names : (functions.map HostFunction.name).Nodup := by
  decide

theorem tellsOf_of_body {f : HostFunction} (listed : f ∈ functions) {args : List Value}
    {context : Context} {failure : CallFailure}
    (passed : HostFunction.validate f.signature args = .ok ())
    (failed : f.body args context = .error failure) : TellsOf f.name failure := by
  by_cases joins : f.name = "implode"
  · have implodeListed : implode ∈ functions := by simp [functions]
    obtain rfl := List.inj_on_of_nodup_map nodup_names listed implodeListed joins
    exact tellsOf_of_implode failed
  · obtain ⟨plan, follows⟩ := exists_follows listed joins
    rw [follows] at failed
    obtain ⟨reason, rfl | rfl⟩ :=
      Extraction.own_of_succeeds (Extraction.succeeds_of_validate passed _) failed
    · exact ⟨rfl, by simp⟩
    · exact ⟨rfl, by simp⟩

theorem functions_failAsThemselves {f : HostFunction} (listed : f ∈ functions) : f.FailsAsItself :=
  HostFunction.failsAsItself_of_body fun _ _ _ passed failed =>
    (tellsOf_of_body listed passed failed).1

theorem not_reportsUndefined {f : HostFunction} (listed : f ∈ functions) : ¬ f.ReportsUndefined :=
  HostFunction.not_reportsUndefined_of_body fun _ _ _ => tellsOf_of_body listed

theorem failsAsUndefined_evaluate {e : Evaluator} (offered : e.functions = catalogue.hostFunctions)
    {params : Parameters} {name : String} {args : List Expression} {values : List Value}
    (allowed : name ∈ e.allowed) (done : e.evaluateItems params args = .ok values) :
    FailsAsUndefined name (e.evaluate params (.call (.named name) args)) ↔
      name ∈ e.unavailable := by
  rw [Evaluator.evaluate_allowed allowed done, Evaluator.mem_unavailable offered,
    Evaluator.failsAsUndefined_apply offered fun f listed _ => not_reportsUndefined listed,
    and_iff_right allowed]

end ConfigExpr.Standard
