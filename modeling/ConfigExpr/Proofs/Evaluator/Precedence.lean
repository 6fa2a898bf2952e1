import ConfigExpr.Proofs.Evaluator.Steps
import ConfigExpr.Proofs.Expression.DepthGuard
import ConfigExpr.Proofs.Parameters.Tables

/-!
Which error of a run comes first. The parameters are read before the document is classified and the
document is classified before anything is evaluated, so malformed parameters win over depth and depth
wins over every fault of a node.
-/
namespace ConfigExpr.Evaluator
open Outcome

theorem run_of_ofJson (e : Evaluator) (tree : Json) {document : Json} {params : Parameters}
    (read : Parameters.ofJson document = .ok params) :
    e.run tree document = e.runWith params tree := by
  rw [run, read]
  rfl

theorem classify_eq_within (e : Evaluator) (params : Parameters) (tree : Json) :
    e.classify params tree =
      Expression.within e.config.maxDepth (tree.weight params.hasSpace)
        (.ofJson params.hasSpace tree) :=
  Expression.classify_eq_within params.hasSpace e.config.maxDepth tree

theorem runWith_of_fits (e : Evaluator) {params : Parameters} {tree : Json}
    (fits : tree.weight params.hasSpace ≤ e.config.maxDepth) :
    e.runWith params tree = e.evaluate params (.ofJson params.hasSpace tree) := by
  rw [runWith, classify_eq_within, Expression.within_of_le fits]
  rfl

theorem runWith_of_exceeds (e : Evaluator) {params : Parameters} {tree : Json}
    (exceeds : e.config.maxDepth < tree.weight params.hasSpace) :
    e.runWith params tree = .error (.depthExceeded e.config.maxDepth) := by
  rw [runWith, classify_eq_within, Expression.within_of_lt exceeds]
  rfl

theorem evaluate_fault {e : Evaluator} {params : Parameters} {x : Expression} {fault : EvalError}
    (failed : e.evaluate params x = .error fault) :
    (∀ space, fault ≠ .malformedParameters space) ∧ ∀ limit, fault ≠ .depthExceeded limit := by
  obtain ⟨node, -, raised⟩ := raises_of_evaluate_eq_error failed
  cases raised with
  | name refused | nameWithoutList refused =>
    obtain ⟨shown, rfl⟩ := allowedName_eq_error refused
    simp
  | form _ => simp
  | reference missed =>
    obtain ⟨shown, rfl | rfl⟩ := resolve_eq_error missed <;> simp
  | function _ _ failed => obtain rfl | ⟨failure, rfl⟩ := apply_eq_error failed <;> simp

theorem runWith_ne_malformedParameters (e : Evaluator) (params : Parameters) (tree : Json)
    (space : String) : e.runWith params tree ≠ .error (.malformedParameters space) := by
  intro failed
  by_cases fits : tree.weight params.hasSpace ≤ e.config.maxDepth
  · rw [runWith_of_fits e fits] at failed
    exact (evaluate_fault failed).1 space rfl
  · rw [runWith_of_exceeds e (Nat.not_le.mp fits)] at failed
    cases failed

theorem runWith_eq_depthExceeded_iff (e : Evaluator) (params : Parameters) (tree : Json)
    (limit : Nat) : e.runWith params tree = .error (.depthExceeded limit) ↔
      limit = e.config.maxDepth ∧ e.config.maxDepth < tree.weight params.hasSpace := by
  by_cases fits : tree.weight params.hasSpace ≤ e.config.maxDepth
  · rw [runWith_of_fits e fits]
    exact ⟨fun failed => absurd rfl ((evaluate_fault failed).2 limit), fun both => by omega⟩
  · have exceeds := Nat.not_le.mp fits
    rw [runWith_of_exceeds e exceeds]
    exact ⟨fun same => ⟨by cases same; rfl, exceeds⟩, fun both => both.1 ▸ rfl⟩

theorem run_eq_malformedParameters_iff (e : Evaluator) (tree document : Json) :
    (∃ space, e.run tree document = .error (.malformedParameters space)) ↔
      ¬ Parameters.WellFormed document := by
  constructor
  · rintro ⟨space, failed⟩ wellFormed
    obtain ⟨params, read⟩ := Parameters.ofJson_eq_ok_of_wellFormed wellFormed
    rw [run_of_ofJson e tree read] at failed
    exact runWith_ne_malformedParameters e params tree space failed
  · intro malformed
    obtain ⟨space, failed⟩ := Parameters.ofJson_eq_error_of_not_wellFormed malformed
    exact ⟨space, by rw [run, failed]; rfl⟩

theorem run_eq_depthExceeded_iff (e : Evaluator) (tree : Json) {document : Json}
    (wellFormed : Parameters.WellFormed document) (limit : Nat) :
    e.run tree document = .error (.depthExceeded limit) ↔ limit = e.config.maxDepth ∧
      e.config.maxDepth < tree.weight fun name =>
        (Parameters.spacesOf document).contains name := by
  obtain ⟨params, read⟩ := Parameters.ofJson_eq_ok_of_wellFormed wellFormed
  rw [run_of_ofJson e tree read, ← Parameters.hasSpace_of_ofJson read]
  exact runWith_eq_depthExceeded_iff e params tree limit

theorem depth_guard_exact :
    (∀ (isSpace : String → Bool) (tree : Json) (maxDepth : Nat),
      (tree.weight isSpace ≤ maxDepth →
        Expression.classify ⟨isSpace, maxDepth⟩ tree = .ok (.ofJson isSpace tree) ∧
        (Expression.ofJson isSpace tree).nesting ≤ maxDepth) ∧
      (maxDepth < tree.weight isSpace →
        Expression.classify ⟨isSpace, maxDepth⟩ tree = .error (.depthExceeded maxDepth))) ∧
    (∀ (e : Evaluator) (tree document : Json),
      ((∃ space, e.run tree document = .error (.malformedParameters space)) ↔
        ¬ Parameters.WellFormed document) ∧
      (Parameters.WellFormed document →
        ((∃ limit, e.run tree document = .error (.depthExceeded limit)) ↔
          e.config.maxDepth < tree.weight fun name =>
            (Parameters.spacesOf document).contains name) ∧
        ∀ limit, e.run tree document = .error (.depthExceeded limit) →
          limit = e.config.maxDepth)) ∧
    ∀ (e : Evaluator) (params : Parameters) (x : Expression) (fault : EvalError),
      e.evaluate params x = .error fault →
        (∀ space, fault ≠ .malformedParameters space) ∧ ∀ limit, fault ≠ .depthExceeded limit := by
  refine ⟨fun isSpace tree maxDepth => ⟨fun fits => ⟨?_, ?_⟩, fun exceeds => ?_⟩,
    fun e tree document => ?_, fun e params x fault => evaluate_fault⟩
  · rw [Expression.classify_eq_within, Expression.within_of_le fits]
  · exact Nat.le_trans (Expression.nesting_ofJson_le isSpace tree) fits
  · rw [Expression.classify_eq_within, Expression.within_of_lt exceeds]
  · refine ⟨run_eq_malformedParameters_iff e tree document, fun wellFormed => ?_⟩
    have depth := run_eq_depthExceeded_iff e tree wellFormed
    refine ⟨⟨fun ⟨limit, failed⟩ => ((depth limit).mp failed).2, fun exceeds => ?_⟩,
      fun limit failed => ((depth limit).mp failed).1⟩
    exact ⟨e.config.maxDepth, (depth _).mpr ⟨rfl, exceeds⟩⟩

theorem depth_guard_exact_illegal_call :
    let e : Evaluator := .new { Config.standard 0 with maxDepth := 2 } Catalogue.empty.hostFunctions
    let tree : Json := .array [.object [("function", .string "eval"), ("args", .array [])]]
    let params : Json := .object [("attr", .object [])]
    let malformed : Json := .object [("attr", .null)]
    let isSpace : String → Bool := fun name => (Parameters.spacesOf params).contains name
    (tree.weight isSpace ≤ 3 ∧ Expression.classify ⟨isSpace, 3⟩ tree =
      .ok (.sequence [.call (.named "eval") []])) ∧
    (Parameters.WellFormed params ∧ e.config.maxDepth < tree.weight isSpace ∧
      ∃ limit, e.run tree params = .error (.depthExceeded limit)) ∧
    ¬ Parameters.WellFormed malformed ∧
      ∃ space, e.run tree malformed = .error (.malformedParameters space) := by
  intro e tree params malformed isSpace
  obtain ⟨classification, runs, -⟩ := depth_guard_exact
  have fits : tree.weight isSpace ≤ 3 := by decide
  have exceeds : e.config.maxDepth < tree.weight isSpace := by decide
  have wellFormed : Parameters.WellFormed params := List.forall_mem_singleton.mpr rfl
  have scalar : ¬ Parameters.WellFormed malformed :=
    fun containers => nomatch containers ("attr", .null) List.mem_cons_self
  exact ⟨⟨fits, ((classification isSpace tree 3).1 fits).1⟩,
    ⟨wellFormed, exceeds, ((runs e tree params).2 wellFormed).1.mpr exceeds⟩,
    scalar, (runs e tree malformed).1.mpr scalar⟩

end ConfigExpr.Evaluator
