import ConfigExpr.Proofs.Evaluator.Agreement
import ConfigExpr.Proofs.Host.Catalogues
import ConfigExpr.Standard.Functions

/-!
Pure functions. A function of the standard catalogue that is marked as pure takes nothing from its
context, neither the offset of local time nor the current time, so a tree that calls only such
functions gives the same result in every context.
-/
namespace ConfigExpr

/-- The settings with another offset and another current time. -/
def Config.inContext (c : Config) (context : Context) : Config :=
  { c with offset := context.offset, now := context.now }

theorem Config.context_inContext (c : Config) (context : Context) :
    (c.inContext context).context = context := rfl

namespace Standard

theorem body_of_isPure {f : HostFunction} (listed : f ∈ functions) (pure : f.isPure = true)
    (args : List Value) (context₁ context₂ : Context) :
    f.body args context₁ = f.body args context₂ := by
  simp only [functions, List.mem_cons, List.not_mem_nil, or_false] at listed
  rcases listed with rfl | rfl | rfl | rfl | rfl | rfl | rfl | rfl | rfl | rfl | rfl | rfl | rfl |
    rfl | rfl | rfl | rfl <;> cases pure <;> rfl

theorem call_of_isPure {f : HostFunction} (listed : f ∈ functions) (pure : f.isPure = true)
    (args : List Value) (context₁ context₂ : Context) :
    f.call args context₁ = f.call args context₂ := by
  rw [HostFunction.call, HostFunction.call, body_of_isPure listed pure args context₁ context₂]

/-- A name of the evaluator's own functions, or of a pure function of the catalogue. -/
def IsPureName (name : String) : Prop :=
  name = "concat" ∨ name = "ifempty" ∨ ∃ f, catalogue.find? name = some f ∧ f.isPure = true

theorem apply_of_isPureName {name : String} (pure : IsPureName name) (allowed : Allowlist)
    (config : Config) (context₁ context₂ : Context) :
    Evaluator.apply ⟨allowed, catalogue.hostFunctions, config.inContext context₁⟩ name =
      Evaluator.apply ⟨allowed, catalogue.hostFunctions, config.inContext context₂⟩ name := by
  funext args
  rw [Evaluator.apply, Evaluator.apply]
  cases builtin : Builtin.ofName? name with
  | some f => rfl
  | none =>
    rcases pure with rfl | rfl | ⟨f, found, pure⟩
    · cases builtin
    · cases builtin
    · have same : catalogue.invoke name args context₁ = catalogue.invoke name args context₂ := by
        rw [Catalogue.invoke, Catalogue.invoke, found]
        exact call_of_isPure (Catalogue.mem_of_find?_ofList found) pure args context₁ context₂
      simp only [Catalogue.hostFunctions, Config.context_inContext, same]

theorem pure_trees_ignore_the_clock (allowed : Allowlist) (config : Config) (tree document : Json)
    (pure : Evaluator.CallsOnly ⟨allowed, catalogue.hostFunctions, config⟩ tree document IsPureName)
    (context₁ context₂ : Context) :
    Evaluator.run ⟨allowed, catalogue.hostFunctions, config.inContext context₁⟩ tree document =
      Evaluator.run ⟨allowed, catalogue.hostFunctions, config.inContext context₂⟩ tree document :=
  Evaluator.run_congr_of_calls rfl fun params x read found node inside name named =>
    ⟨Iff.rfl, fun _ => apply_of_isPureName (pure params x read found node inside name named)
      allowed config context₁ context₂⟩

theorem pure_trees_ignore_the_clock_digest :
    let allowed : Allowlist := ["md5", "concat"]
    let config : Config := .standard 0
    let digest : Json := .object [("function", .string "md5"), ("args", .array [.string "a"])]
    let tree : Json := .object [("function", .string "concat"), ("args", .array [digest])]
    Evaluator.CallsOnly ⟨allowed, catalogue.hostFunctions, config⟩ tree .null IsPureName ∧
      ∀ context₁ context₂ : Context,
        Evaluator.run ⟨allowed, catalogue.hostFunctions, config.inContext context₁⟩ tree .null =
          Evaluator.run ⟨allowed, catalogue.hostFunctions, config.inContext context₂⟩ tree .null := by
  intro allowed config digest tree
  have pure : Evaluator.CallsOnly ⟨allowed, catalogue.hostFunctions, config⟩ tree .null
      IsPureName := by
    have classified (params : Parameters) :
        Evaluator.classify ⟨allowed, catalogue.hostFunctions, config⟩ params tree =
          .ok (.call (.named "concat") [.call (.named "md5") [.scalar (.string "a")]]) := rfl
    refine Evaluator.callsOnly_of_classified classified (Expression.forall_occurs.mpr ⟨?_, ?_⟩)
    · rintro _ ⟨⟩
      exact .inl rfl
    · refine List.forall_mem_singleton.mpr (Expression.forall_occurs.mpr ⟨?_, ?_⟩)
      · rintro _ ⟨⟩
        exact .inr (.inr ⟨md5, rfl, rfl⟩)
      · refine List.forall_mem_singleton.mpr
          (Expression.forall_occurs.mpr ⟨?_, List.forall_mem_nil _⟩)
        rintro _ ⟨⟩
  exact ⟨pure, pure_trees_ignore_the_clock allowed config tree .null pure⟩

end Standard

end ConfigExpr
