import ConfigExpr.Proofs.Evaluator.Precedence
import ConfigExpr.Proofs.Value.Documents

/-!
Documents that nothing in the evaluator acts on. Where no object is a call or a reference, every
container stands for itself, so the document is read, evaluated and returned as its own value.
-/
namespace ConfigExpr

/-- No object of a document is a call, or a single field that names a space. -/
def Json.IsInert (isSpace : String → Bool) : Json → Prop :=
  Json.EveryObject fun names =>
    "function" ∉ names ∧ ∀ space, isSpace space = true → names ≠ [space]

namespace Evaluator
open Expression Json

theorem reference?_eq_none {isSpace : String → Bool} {fields : List (String × Json)}
    (plain : ∀ space, isSpace space = true → Fields.names fields ≠ [space]) :
    reference? isSpace fields = none := by
  unfold reference?
  split
  next space key =>
    exact if_neg fun known => plain space known rfl
  next => rfl

section Inert
variable (e : Evaluator) (params : Parameters) {isSpace : String → Bool}

mutual

theorem evaluate_of_isInert : ∀ document : Json, document.IsInert isSpace →
    e.evaluate params (.ofJson isSpace document) = .ok (.ofJson document)
  | .null, _ | .bool _, _ | .number _, _ | .string _, _ => rfl
  | .array items, inert => by
    rw [Expression.ofJson, evaluate, evaluateItems_of_isInert items (everyObject_array.mp inert)]
    rfl
  | .object fields, inert => by
    obtain ⟨⟨noCall, noReference⟩, each⟩ := everyObject_object.mp inert
    have unnamed : Fields.find? fields functionField = none := Fields.find?_eq_none.mpr noCall
    have unspaced : reference? isSpace fields = none := reference?_eq_none noReference
    simp only [Expression.ofJson, unnamed, unspaced]
    rw [evaluate, evaluateFields_of_isInert fields each]
    rfl

theorem evaluateItems_of_isInert : ∀ items : List Json, (∀ item ∈ items, item.IsInert isSpace) →
    e.evaluateItems params (ofJsonItems isSpace items) = .ok (Value.ofJsonItems items)
  | [], _ => rfl
  | item :: rest, each => by
    rw [List.forall_mem_cons] at each
    rw [ofJsonItems, evaluateItems, evaluate_of_isInert item each.1,
      evaluateItems_of_isInert rest each.2]
    rfl

theorem evaluateFields_of_isInert : ∀ fields : List (String × Json),
    (∀ field ∈ fields, field.2.IsInert isSpace) →
    e.evaluateFields params (ofJsonFields isSpace fields) = .ok (Value.ofJsonFields fields)
  | [], _ => rfl
  | (name, item) :: rest, each => by
    rw [List.forall_mem_cons] at each
    rw [ofJsonFields, evaluateFields, evaluate_of_isInert item each.1,
      evaluateFields_of_isInert rest each.2]
    rfl

end

end Inert

theorem inert_documents_are_returned (e : Evaluator) (tree document : Json)
    (wellFormed : Parameters.WellFormed document)
    (inert : tree.IsInert fun name => (Parameters.spacesOf document).contains name)
    (fits : (tree.weight fun name => (Parameters.spacesOf document).contains name) ≤
      e.config.maxDepth) :
    e.run tree document = .ok (.ofJson tree) ∧
    (Value.ofJson tree).outline = tree.outline ∧
    (tree.IntegersFit → (Value.ofJson tree).toJson = tree) := by
  obtain ⟨params, read⟩ := Parameters.ofJson_eq_ok_of_wellFormed wellFormed
  have spaces := Parameters.hasSpace_of_ofJson read
  refine ⟨?_, Value.outline_ofJson tree, Value.toJson_ofJson tree⟩
  rw [run_of_ofJson e tree read, runWith_of_fits e (spaces ▸ fits), spaces]
  exact evaluate_of_isInert e params tree inert

theorem inert_documents_are_returned_namesake :
    let e : Evaluator := .new { Config.standard 0 with maxDepth := 3 } Catalogue.empty.hostFunctions
    let part : Json := .object [("attr", .string "key"), ("last", .integer (-2 ^ 63))]
    let tree : Json := .object [("list", .array [.string "attr", part])]
    let document : Json := .object [("attr", .object [("key", .bool true)])]
    let isSpace : String → Bool := fun name => (Parameters.spacesOf document).contains name
    (Parameters.WellFormed document ∧ tree.IsInert isSpace ∧
      tree.weight isSpace ≤ e.config.maxDepth ∧ tree.IntegersFit) ∧
    e.run tree document = .ok (.ofJson tree) ∧ (Value.ofJson tree).toJson = tree := by
  intro e part tree document isSpace
  have wellFormed : Parameters.WellFormed document := List.forall_mem_singleton.mpr rfl
  have noName {p : List String → Prop} {s : String} : EveryObject p (.string s) :=
    everyObject_of_scalar rfl
  have noField {p : List String → Prop} {n : Int} : EveryObject p (.integer n) :=
    everyObject_of_scalar rfl
  have noInteger {s : String} : IntegersFit (.string s) := fun n inside => nomatch inside
  have inert : tree.IsInert isSpace := by
    simp [tree, part, isSpace, document, IsInert, everyObject_object, everyObject_array, noName,
      noField, Parameters.spacesOf, Fields.names]
  have integers : tree.IntegersFit := by
    simp [tree, part, integersFit_object, integersFit_array, integersFit_integer, noInteger]
  have weight : tree.weight isSpace ≤ e.config.maxDepth := by decide
  obtain ⟨returned, -, restored⟩ :=
    inert_documents_are_returned e tree document wellFormed inert weight
  exact ⟨⟨wellFormed, inert, weight, integers⟩, returned, restored integers⟩

end Evaluator

end ConfigExpr
