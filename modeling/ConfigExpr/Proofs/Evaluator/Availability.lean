import ConfigExpr.Proofs.Evaluator.AllowlistHistory
import ConfigExpr.Proofs.Evaluator.Sandbox
import ConfigExpr.Proofs.Host.Catalogues
import ConfigExpr.Proofs.Host.Wordings

/-!
Which allowed names can be called. The list of unavailable names and the dispatch of calls look at
the evaluator's own functions and at the catalogue each for itself; a call fails as undefined
exactly where the list says so.
-/
namespace ConfigExpr

/-- Fails as the call of an undefined function does. -/
def FailsAsUndefined (name : String) (outcome : Except EvalError Value) : Prop :=
  ∃ failure, outcome = .error (.functionFailure name failure) ∧
    failure.message = "Call to undefined function " ++ name ++ "()"

namespace Evaluator
open Allowlist Outcome

theorem changes_eq (e : Evaluator) (history : List Change) :
    history.foldl change e = { e with allowed := e.allowed.after history } := by
  induction history generalizing e with
  | nil => rfl
  | cons c rest ih =>
    rw [List.foldl_cons, ih]
    cases c with
    | allow name | deny name => rfl

section Calls
variable {e : Evaluator} {c : Catalogue} {f : HostFunction} {functions : List HostFunction}
  {name : String}

theorem evaluate_allowed {params : Parameters} {args : List Expression} {values : List Value}
    (allowed : name ∈ e.allowed) (done : e.evaluateItems params args = .ok values) :
    e.evaluate params (.call (.named name) args) = e.apply name values := by
  rw [evaluate_call, allowedName_eq_ok.mpr ⟨rfl, allowed⟩, ok_bind, done, ok_bind]

theorem apply_of_find? (offered : e.functions = c.hostFunctions) (found : c.find? name = some f)
    (host : Builtin.ofName? name = none) (values : List Value) :
    e.apply name values =
      (f.call values e.config.context).mapError (.functionFailure name) := by
  have invoked : c.invoke name values e.config.context = f.call values e.config.context := by
    rw [Catalogue.invoke, found]
  rw [apply, host, offered]
  simp only [Catalogue.hostFunctions, invoked]
  cases f.call values e.config.context with
  | ok v | error failure => rfl

theorem apply_of_unknown (offered : e.functions = c.hostFunctions) (unknown : c.find? name = none)
    (host : Builtin.ofName? name = none) (values : List Value) :
    e.apply name values = .error (.functionFailure name (.undefined name)) := by
  have invoked : c.invoke name values e.config.context = .error (.undefined name) := by
    rw [Catalogue.invoke, unknown]
  rw [apply, host, offered]
  simp only [Catalogue.hostFunctions, invoked]

theorem not_failsAsUndefined_builtin {f : Builtin} (values : List Value) :
    ¬ FailsAsUndefined name (f.call values) := by
  rintro ⟨failure, failed, worded⟩
  rcases builtin_call_eq_error failed with impossible | same
  · cases impossible
  · injection same with own reason
    subst reason
    have plain : ':' ∉ name.toList := by
      rw [own]
      cases f <;> decide
    cases (CallFailure.message_eq_undefined_iff (.inl plain)).mp worded

theorem failsAsUndefined_apply (offered : e.functions = (Catalogue.ofList functions).hostFunctions)
    (silent : ∀ f ∈ functions, f.name = name → ¬ f.ReportsUndefined) (values : List Value) :
    FailsAsUndefined name (e.apply name values) ↔
      Builtin.ofName? name = none ∧ (Catalogue.ofList functions).find? name = none := by
  refine ⟨fun ⟨failure, failed, worded⟩ => ?_, fun ⟨host, unknown⟩ =>
    ⟨.undefined name, apply_of_unknown offered unknown host values, rfl⟩⟩
  cases own : Builtin.ofName? name with
  | some f =>
    rw [apply, own] at failed
    exact (not_failsAsUndefined_builtin values ⟨failure, failed, worded⟩).elim
  | none =>
    refine ⟨rfl, ?_⟩
    cases found : (Catalogue.ofList functions).find? name with
    | none => rfl
    | some f =>
      obtain ⟨last, rfl⟩ := Catalogue.find?_ofList_eq_some.mp found
      rw [apply_of_find? offered found own] at failed
      cases called : f.call values e.config.context with
      | ok v =>
        rw [called] at failed
        cases failed
      | error failure =>
        rw [called] at failed
        injection failed with failed
        injection failed with _ same
        subst same
        exact (silent f last.mem rfl ⟨values, _, failure, called, worded⟩).elim

theorem isCallable_eq_false_iff
    (offered : e.functions = (Catalogue.ofList functions).hostFunctions) :
    e.isCallable name = false ↔
      Builtin.ofName? name = none ∧ (Catalogue.ofList functions).find? name = none := by
  simp only [isCallable, offered, Catalogue.hostFunctions, Catalogue.contains,
    Bool.or_eq_false_iff, Option.isSome_eq_false_iff, Option.isNone_iff_eq_none]

theorem mem_unavailable (offered : e.functions = (Catalogue.ofList functions).hostFunctions) :
    name ∈ e.unavailable ↔ name ∈ e.allowed ∧
      Builtin.ofName? name = none ∧ (Catalogue.ofList functions).find? name = none := by
  rw [unavailable, List.mem_filter, Bool.not_eq_true', isCallable_eq_false_iff offered]

theorem unavailable_eq_filter
    (offered : e.functions = (Catalogue.ofList functions).hostFunctions) :
    e.unavailable = e.allowed.filter fun name =>
      name ≠ "concat" ∧ name ≠ "ifempty" ∧ ∀ f ∈ functions, f.name ≠ name := by
  refine List.filter_congr fun name _ => ?_
  rw [Bool.eq_iff_iff, Bool.not_eq_true', isCallable_eq_false_iff offered, decide_eq_true_iff,
    Builtin.ofName?_eq_none, Catalogue.find?_ofList_eq_none, and_assoc]

end Calls

/-- A catalogue lists each registered name once and in order, counts it once and runs the function
that was registered last under it. After any changes of the allowlist the unavailable names are the
allowed ones, in their order, that are neither the evaluator's own nor registered. A call of an
allowed name whose arguments have values fails as that of an undefined function if the name is
unavailable, and only then, as long as no function registered under it reports it as undefined. Under
a name with a colon a function could also word another failure like that, unless it tells only of
itself. -/
theorem catalogue_and_availability_agree (functions : List HostFunction) (config : Config)
    (history : List Change) :
    let c := Catalogue.ofList functions
    let e := history.foldl change (.new config c.hostFunctions)
    (c.names.Pairwise (· < ·) ∧ (∀ name, name ∈ c.names ↔ ∃ f ∈ functions, f.name = name) ∧
      c.size = c.names.length ∧ c.size = (functions.map HostFunction.name).toFinset.card) ∧
    (∀ f, RegisteredLast functions f → c.invoke f.name = f.call) ∧
    e.allowed = after [] (config.allowed.map .allow ++ history) ∧
    (e.unavailable = e.allowed.filter fun name =>
      name ≠ "concat" ∧ name ≠ "ifempty" ∧ ∀ f ∈ functions, f.name ≠ name) ∧
    (∀ params name args values, name ∈ e.allowed → e.evaluateItems params args = .ok values →
      (∀ f, RegisteredLast functions f → f.name = name → name ≠ "concat" → name ≠ "ifempty" →
        e.evaluate params (.call (.named name) args) =
          (f.call values config.context).mapError (.functionFailure name)) ∧
      (name ∈ e.unavailable → e.evaluate params (.call (.named name) args) =
        .error (.functionFailure name (.undefined name))) ∧
      (':' ∉ name.toList → (∀ f ∈ functions, f.name = name →
          ∀ args context, f.call args context ≠ .error (.undefined name)) →
        (FailsAsUndefined name (e.evaluate params (.call (.named name) args)) ↔
          name ∈ e.unavailable)) ∧
      ((∀ f ∈ functions, f.name = name → ¬ f.ReportsUndefined) →
        (FailsAsUndefined name (e.evaluate params (.call (.named name) args)) ↔
          name ∈ e.unavailable))) ∧
    ∀ f ∈ functions, ':' ∉ f.name.toList ∨ f.FailsAsItself →
      (f.ReportsUndefined ↔ ∃ args context, f.call args context = .error (.undefined f.name)) := by
  intro c e
  have offered : e.functions = c.hostFunctions :=
    congrArg Evaluator.functions (changes_eq _ history)
  have settings : e.config = config := congrArg Evaluator.config (changes_eq _ history)
  refine ⟨⟨Catalogue.pairwise_names_ofList functions, fun name => Catalogue.mem_names_ofList,
    Catalogue.size_eq_length_names c, Catalogue.size_ofList functions⟩,
    fun f => Catalogue.invoke_ofList, allowed_changes_new config _ history,
    unavailable_eq_filter offered, ?_, fun f _ => HostFunction.reportsUndefined_iff⟩
  intro params name args values allowed done
  rw [evaluate_allowed allowed done]
  have worded (silent : ∀ f ∈ functions, f.name = name → ¬ f.ReportsUndefined) :
      FailsAsUndefined name (e.apply name values) ↔ name ∈ e.unavailable := by
    rw [failsAsUndefined_apply offered silent, mem_unavailable offered, and_iff_right allowed]
  refine ⟨fun f last named notConcat notIfEmpty => ?_, fun listed => ?_,
    fun plain silent => worded fun f member named reports => ?_, worded⟩
  · have found := Catalogue.find?_ofList_eq_some.mpr ⟨last, named⟩
    have host := Builtin.ofName?_eq_none.mpr ⟨notConcat, notIfEmpty⟩
    rw [apply_of_find? offered found host, settings]
  · obtain ⟨-, host, unknown⟩ := (mem_unavailable offered).mp listed
    exact apply_of_unknown offered unknown host values
  · subst named
    obtain ⟨args, context, failed⟩ := (HostFunction.reportsUndefined_iff (.inl plain)).mp reports
    exact silent f member rfl args context failed

def constant (name : String) (n : Int64) : HostFunction where
  signature := .fixed name [] .integer
  documentation := ""
  isPure := true
  body _ _ := .ok (.integer n)

theorem constant_call_ne_undefined {name other : String} {n : Int64} (args : List Value)
    (context : Context) : (constant name n).call args context ≠ .error (.undefined other) :=
  HostFunction.call_ne_undefined fun _ failed => nomatch failed

theorem catalogue_and_availability_agree_replaced :
    let functions := [constant "ten" 9, constant "one" 1, constant "ten" 10]
    let config : Config := { Config.standard 0 with allowed := ["zero", "ten", "concat", "two"] }
    let history : List Change := [.deny "zero", .allow "three", .allow "zero", .allow "one"]
    let c := Catalogue.ofList functions
    let e := history.foldl change (.new config c.hostFunctions)
    (∀ f ∈ functions, ∀ args context other, f.call args context ≠ .error (.undefined other)) ∧
      c.size = 2 ∧
      e.unavailable = ["two", "three", "zero"] ∧
      e.evaluate ⟨[]⟩ (.call (.named "ten") []) = .ok (.integer 10) ∧
      FailsAsUndefined "two" (e.evaluate ⟨[]⟩ (.call (.named "two") [])) := by
  intro functions config history c e
  have silent : ∀ f ∈ functions, ∀ args context other,
      f.call args context ≠ .error (.undefined other) := by
    simp only [functions, List.forall_mem_cons]
    exact ⟨fun args context _ => constant_call_ne_undefined args context,
      fun args context _ => constant_call_ne_undefined args context,
      fun args context _ => constant_call_ne_undefined args context, List.forall_mem_nil _⟩
  have last : RegisteredLast functions (constant "ten" 10) :=
    ⟨[constant "ten" 9, constant "one" 1], [], rfl, List.forall_mem_nil _⟩
  have unavailable : e.unavailable = ["two", "three", "zero"] := by decide
  obtain ⟨-, -, -, -, calls, -⟩ := catalogue_and_availability_agree functions config history
  obtain ⟨registered, -, -⟩ := calls ⟨[]⟩ "ten" [] [] (by decide) rfl
  obtain ⟨-, -, undefined_iff, -⟩ := calls ⟨[]⟩ "two" [] [] (by decide) rfl
  have plain : ':' ∉ "two".toList := by decide
  have undefined := undefined_iff plain fun f listed _ args context => silent f listed args context _
  exact ⟨silent, by decide, unavailable, registered _ last rfl (by decide) (by decide),
    undefined.mpr (by rw [unavailable]; decide)⟩

end Evaluator

end ConfigExpr
