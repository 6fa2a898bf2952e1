import ConfigExpr.Proofs.Evaluator.Agreement
import ConfigExpr.Proofs.Evaluator.Precedence
import ConfigExpr.Proofs.Host.Catalogues

/-!
The sandbox. A run sees of the catalogue only what the allowed names invoke, and of those not the
names of the evaluator's own functions; a call whose name is no text is illegal under every
allowlist.
-/
namespace ConfigExpr

theorem Builtin.ofName?_eq_none {name : String} :
    Builtin.ofName? name = none ↔ name ≠ "concat" ∧ name ≠ "ifempty" := by
  simp only [ofName?, all, List.find?_eq_none, List.mem_cons, List.not_mem_nil, or_false,
    forall_eq_or_imp, forall_eq, Builtin.name, beq_iff_eq]
  exact ⟨fun h => ⟨fun same => h.1 same.symm, fun same => h.2 same.symm⟩,
    fun h => ⟨fun same => h.1 same.symm, fun same => h.2 same.symm⟩⟩

namespace Evaluator
open Outcome

/-- Agreement of two catalogues on what an allowlist lets through to them. -/
def Indistinguishable (allowed : Allowlist) (functions₁ functions₂ : HostFunctions) : Prop :=
  ∀ name ∈ allowed, name ≠ "concat" → name ≠ "ifempty" →
    ∀ args context, functions₁.invoke name args context = functions₂.invoke name args context

variable {allowed : Allowlist} {functions₁ functions₂ : HostFunctions}

theorem apply_congr (config : Config) (same : Indistinguishable allowed functions₁ functions₂)
    {name : String} (held : name ∈ allowed) :
    apply ⟨allowed, functions₁, config⟩ name = apply ⟨allowed, functions₂, config⟩ name := by
  funext args
  rw [apply, apply]
  cases found : Builtin.ofName? name with
  | some f => rfl
  | none =>
    obtain ⟨notConcat, notIfEmpty⟩ := Builtin.ofName?_eq_none.mp found
    simp only [same name held notConcat notIfEmpty]

theorem run_congr (config : Config) (same : Indistinguishable allowed functions₁ functions₂)
    (tree document : Json) : run ⟨allowed, functions₁, config⟩ tree document =
      run ⟨allowed, functions₂, config⟩ tree document :=
  run_congr_of_calls rfl fun _ _ _ _ _ _ _ _ => ⟨Iff.rfl, apply_congr config same⟩

theorem register_indistinguishable (c : Catalogue) {f : HostFunction}
    (hidden : f.name ∉ allowed ∨ f.name = "concat" ∨ f.name = "ifempty") :
    Indistinguishable allowed (c.register f).hostFunctions c.hostFunctions := by
  intro name held notConcat notIfEmpty args context
  have other : name ≠ f.name := by
    rintro rfl
    rcases hidden with absent | same | same
    · exact absent held
    · exact notConcat same
    · exact notIfEmpty same
  exact congrFun (congrFun (c.invoke_register f other) args) context

theorem evaluate_callOfFields_invalid (e : Evaluator) (params : Parameters)
    (isSpace : String → Bool) (json : String) (fields : List (String × Json)) :
    e.evaluate params (.callOfFields isSpace (.invalid json) fields) =
      .error (.illegalFunction json) := by
  induction fields with
  | nil => rfl
  | cons field rest ih =>
    obtain ⟨key, args⟩ := field
    rw [Expression.callOfFields]
    split
    · cases args <;> rfl
    · exact ih

theorem callName_eq_invalid {name : Json} (noText : ∀ text, name ≠ .string text) :
    Expression.callName name = .invalid name.compact := by
  unfold Expression.callName
  split
  next text => exact absurd rfl (noText text)
  next => rfl

theorem evaluate_ofJson_invalid (e : Evaluator) (params : Parameters) (isSpace : String → Bool)
    {fields : List (String × Json)} {name : Json}
    (named : Fields.find? fields "function" = some name) (noText : ∀ text, name ≠ .string text) :
    e.evaluate params (.ofJson isSpace (.object fields)) =
      .error (.illegalFunction name.compact) := by
  have field : Fields.find? fields Expression.functionField = some name := named
  simp only [Expression.ofJson, field, callName_eq_invalid noText, evaluate_callOfFields_invalid]

theorem run_sandboxed (allowed : Allowlist) (config : Config) :
    (∀ functions₁ functions₂ : HostFunctions, Indistinguishable allowed functions₁ functions₂ →
      ∀ tree document, run ⟨allowed, functions₁, config⟩ tree document =
        run ⟨allowed, functions₂, config⟩ tree document) ∧
    (∀ (c : Catalogue) (f : HostFunction),
      f.name ∉ allowed ∨ f.name = "concat" ∨ f.name = "ifempty" →
      ∀ tree document, run ⟨allowed, (c.register f).hostFunctions, config⟩ tree document =
        run ⟨allowed, c.hostFunctions, config⟩ tree document) ∧
    ∀ (functions : HostFunctions) (fields : List (String × Json)) (name : Json),
      Fields.find? fields "function" = some name → (∀ text, name ≠ .string text) →
      (∀ shape depth x, Expression.classifyAt shape depth (.object fields) = .ok x →
        ∀ params, evaluate ⟨allowed, functions, config⟩ params x =
          .error (.illegalFunction name.compact)) ∧
      ∀ document params, Parameters.ofJson document = .ok params →
        (Json.object fields).weight params.hasSpace ≤ config.maxDepth →
        run ⟨allowed, functions, config⟩ (.object fields) document =
          .error (.illegalFunction name.compact) := by
  refine ⟨fun functions₁ functions₂ same => run_congr config same,
    fun c f hidden => run_congr config (register_indistinguishable c hidden),
    fun functions fields name named noText => ⟨fun shape depth x found params => ?_,
      fun document params read fits => ?_⟩⟩
  · obtain rfl := Expression.eq_ofJson_of_classifyAt found
    exact evaluate_ofJson_invalid _ params shape.isSpace named noText
  · rw [run_of_ofJson _ _ read, runWith_of_fits _ fits]
    exact evaluate_ofJson_invalid _ params params.hasSpace named noText

theorem run_sandboxed_shadow :
    let shadow : HostFunction := ⟨.fixed "concat" [] .any, "", true, fun _ _ => .ok .null⟩
    let name : Json := .array [.string "md5"]
    let allowed : Allowlist := ["concat", name.compact]
    let config : Config := .standard 0
    let functions : HostFunctions := (Catalogue.empty.register shadow).hostFunctions
    let tree : Json := .object [("function", .string "concat"), ("args", .array [.string "a"])]
    let call : List (String × Json) := [("function", name)]
    (Indistinguishable allowed functions Catalogue.empty.hostFunctions ∧
      run ⟨allowed, functions, config⟩ tree .null =
        run ⟨allowed, Catalogue.empty.hostFunctions, config⟩ tree .null) ∧
    (shadow.name = "concat" ∧ run ⟨allowed, functions, config⟩ tree .null =
      run ⟨allowed, Catalogue.empty.hostFunctions, config⟩ tree .null) ∧
    name.compact ∈ allowed ∧ run ⟨allowed, functions, config⟩ (.object call) .null =
      .error (.illegalFunction name.compact) := by
  intro shadow name allowed config functions tree call
  obtain ⟨catalogues, registered, names⟩ := run_sandboxed allowed config
  have same : Indistinguishable allowed functions Catalogue.empty.hostFunctions :=
    register_indistinguishable Catalogue.empty (.inr (.inl rfl))
  have illegal := (names functions call name rfl fun text impossible => nomatch impossible).2
  exact ⟨⟨same, catalogues _ _ same tree .null⟩,
    ⟨rfl, registered Catalogue.empty shadow (.inr (.inl rfl)) tree .null⟩,
    List.mem_cons_of_mem _ List.mem_cons_self, illegal .null .empty rfl (by decide)⟩

end Evaluator

end ConfigExpr
