import ConfigExpr.Proofs.Evaluator.Agreement

/-!
Allowing more functions. An evaluator that allows more evaluates as before, unless a name was refused
before; and it evaluates as before in any case if no call gives a name that is newly allowed.
-/
namespace ConfigExpr

/-- The refusal of a name, which is the one error that an allowlist causes. -/
def EvalError.IsRefusal (fault : EvalError) : Prop :=
  ∃ shown, fault = .illegalFunction shown

namespace Evaluator
open Expression Outcome

structure SameButAllowed (e₁ e₂ : Evaluator) : Prop where
  functions : e₁.functions = e₂.functions
  maxDepth : e₁.config.maxDepth = e₂.config.maxDepth
  context : e₁.config.context = e₂.config.context

variable {e₁ e₂ : Evaluator} {params : Parameters}

theorem SameButAllowed.apply (same : SameButAllowed e₁ e₂) : e₁.apply = e₂.apply := by
  funext name args
  rw [Evaluator.apply, Evaluator.apply, same.functions, same.context]

theorem allowedName_sameUnless (wider : e₁.allowed ⊆ e₂.allowed) (name : CallName) :
    SameUnless EvalError.IsRefusal (e₁.allowedName name) (e₂.allowedName name) := by
  rcases eq_ok_or_eq_error (e₁.allowedName name) with ⟨text, allowed⟩ | ⟨fault, refused⟩
  · obtain ⟨rfl, listed⟩ := allowedName_eq_ok.mp allowed
    exact .of_eq (allowed.trans (allowedName_eq_ok.mpr ⟨rfl, wider listed⟩).symm)
  · exact .inr ⟨fault, allowedName_eq_error refused, refused⟩

theorem agreeUnless_isRefusal (same : SameButAllowed e₁ e₂) (wider : e₁.allowed ⊆ e₂.allowed)
    (node : Expression) : AgreeUnless EvalError.IsRefusal e₁ e₂ node := by
  cases node with
  | call name args =>
    exact ⟨allowedName_sameUnless wider name, fun text _ => congrFun same.apply text⟩
  | callWithoutList name => exact allowedName_sameUnless wider name
  | scalar _ | sequence _ | object _ | reference _ _ => exact trivial

theorem allowing_more_changes_no_result (e₁ e₂ : Evaluator) (same : SameButAllowed e₁ e₂)
    (wider : e₁.allowed ⊆ e₂.allowed) (tree document : Json) :
    ((∀ name, e₁.run tree document ≠ .error (.illegalFunction name)) →
      e₂.run tree document = e₁.run tree document) ∧
    ((e₁.CallsOnly tree document fun name => name ∈ e₂.allowed → name ∈ e₁.allowed) →
      e₂.run tree document = e₁.run tree document) := by
  refine ⟨fun legal => ?_, fun calls => ?_⟩
  · have runs : SameUnless EvalError.IsRefusal (e₁.run tree document) (e₂.run tree document) :=
      run_sameUnless same.maxDepth fun params x _ _ =>
        evaluate_sameUnless fun node _ => agreeUnless_isRefusal same wider node
    refine (runs.eq ?_).symm
    rintro _ ⟨name, rfl⟩
    exact legal name
  · refine (run_congr_of_calls same.maxDepth ?_).symm
    intro params x read found node inside name named
    exact ⟨⟨@wider name, calls params x read found node inside name named⟩,
      fun _ => congrFun same.apply name⟩

theorem allowing_more_changes_no_result_ifempty :
    let e : Evaluator :=
      .new { Config.standard 0 with allowed := ["concat"] } Catalogue.empty.hostFunctions
    let wider : Evaluator := e.allow "ifempty"
    let missing : Json :=
      .object [("function", .string "concat"), ("args", .array [.object [("attr", .string "gone")]])]
    let unknown : Json := .array [.object [("function", .string "exec")]]
    let document : Json := .object [("attr", .object [])]
    (SameButAllowed e wider ∧ e.allowed ⊆ wider.allowed) ∧
    ((∀ name, e.run missing document ≠ .error (.illegalFunction name)) ∧
      wider.run missing document = .error (.referenceNotFound "attr" "gone")) ∧
    (e.CallsOnly unknown document fun name => name ∈ wider.allowed → name ∈ e.allowed) ∧
      wider.run unknown document = .error (.illegalFunction "exec") := by
  intro e wider missing unknown document
  have same : SameButAllowed e wider := ⟨rfl, rfl, rfl⟩
  have more : e.allowed ⊆ wider.allowed := by decide
  have legal : ∀ name, e.run missing document ≠ .error (.illegalFunction name) :=
    fun name illegal => nomatch illegal
  have calls : e.CallsOnly unknown document fun name => name ∈ wider.allowed → name ∈ e.allowed := by
    have classified (params : Parameters) :
        e.classify params unknown = .ok (.sequence [.call (.named "exec") []]) := rfl
    refine callsOnly_of_classified classified (forall_occurs.mpr ⟨?_, ?_⟩)
    · rintro _ ⟨⟩
    · refine List.forall_mem_singleton.mpr (forall_occurs.mpr ⟨?_, List.forall_mem_nil _⟩)
      rintro _ ⟨⟩ listed
      exact absurd listed (by decide)
  obtain ⟨results, -⟩ := allowing_more_changes_no_result e wider same more missing document
  obtain ⟨-, names⟩ := allowing_more_changes_no_result e wider same more unknown document
  exact ⟨⟨same, more⟩, ⟨legal, results legal⟩, calls, names calls⟩

end Evaluator

end ConfigExpr
