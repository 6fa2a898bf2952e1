import ConfigExpr.Proofs.Evaluator.Precedence
import ConfigExpr.Proofs.Parameters.Ways
import ConfigExpr.Proofs.Value.Documents

/-!
What references reach. A document of one field that names a space is read as a reference, and it
gives the leaf whose joined key it holds, or else the error that names the space and the key. An
integer of 64 bits stands for its decimal text; any other integer is a float and stands for the text
of that.
-/
namespace ConfigExpr

namespace Parameters

theorem find?_tables {spaces : List (String × Json)} {space : String} {table : Json}
    (distinct : (Fields.names spaces).Nodup) (held : (space, table) ∈ spaces) :
    Fields.find? (Fields.ofList (spaces.map fun space => (space.1, FlatTable.flatten space.2)))
      space = some (FlatTable.flatten table) := by
  have written : ∀ flat, (space, flat) ∈
      spaces.map (fun space => (space.1, FlatTable.flatten space.2)) →
      flat = FlatTable.flatten table := by
    intro flat member
    obtain ⟨⟨name, document⟩, other, same⟩ := List.mem_map.mp member
    obtain ⟨rfl, rfl⟩ := Prod.mk.inj same
    rw [Fields.eq_of_mem_of_nodup distinct other held]
  refine (Fields.find?_insertAll_eq_some fun a b first second => ?_).mpr ?_
  · rw [written a first, written b second]
  · exact List.mem_map.mpr ⟨_, held, rfl⟩

end Parameters

namespace Evaluator
open Json FlatTable

theorem run_reference (e : Evaluator) (depth : 1 ≤ e.config.maxDepth) {document : Json}
    {params : Parameters} (read : Parameters.ofJson document = .ok params) {space : String}
    (known : params.hasSpace space = true) (notCall : space ≠ "function") (key : Json) :
    e.run (.object [(space, key)]) document =
      resolve params space (Expression.referenceKey key) := by
  have noName : Fields.find? [(space, key)] Expression.functionField = none := by
    rw [Fields.find?_cons]
    exact if_neg fun same => notCall same.symm
  have weight : (Json.object [(space, key)]).weight params.hasSpace = 1 := by
    rw [Json.weight, noName]
    simp only [Json.isReference, known, if_true]
  rw [run_of_ofJson e _ read, runWith_of_fits e (weight ▸ depth), Expression.ofJson, noName]
  simp only [Expression.reference?, known, if_true]
  rfl

theorem referenceKey_of_fits {n : Int} (low : -2 ^ 63 ≤ n) (high : n < 2 ^ 63) :
    Expression.referenceKey (.integer n) = .key (integerText n) := by
  rw [Json.integer, Expression.referenceKey, Expression.numberKey,
    Value.ofNumber_of_fits low high]
  simp only [Int64.toInt_ofInt_of_le low high]

theorem referenceKey_of_exceeds {n : Int} (exceeds : ¬ (-2 ^ 63 ≤ n ∧ n < 2 ^ 63)) :
    Expression.referenceKey (.integer n) = .key (Binary64.ofInt n).text := by
  rw [Json.integer, Expression.referenceKey, Expression.numberKey,
    Value.ofNumber_of_exceeds exceeds]

theorem isNull_ofNumber (n : JsonNumber) : (Value.ofNumber n).isNull = false := by
  cases n with
  | integer n =>
    rw [Value.ofNumber]
    split <;> rfl
  | float x finite => rfl

theorem isNull_ofJson {leaf : Json} : (Value.ofJson leaf).isNull = false ↔ leaf ≠ .null := by
  cases leaf with
  | number n => simp [Value.ofJson, isNull_ofNumber]
  | null | bool _ | string _ | array _ | object _ => simp [Value.ofJson, Value.isNull]

theorem get?_eq_some_iff_leaf {params : Parameters} {space : String} {table : Json}
    (found : Fields.find? params.tables space = some (flatten table))
    (distinct : HasDistinctNames table) (components : HasComponentNames table) {key : String}
    {v : Value} : params.get? space key = some v ↔
      ∃ leaf way, LeafAt leaf table way ∧ leaf ≠ .null ∧ key = joined way ∧ v = .ofJson leaf := by
  simp only [Parameters.get?_eq_some, found, Option.some.injEq, exists_eq_left',
    find?_flatten_eq_some distinct components]
  constructor
  · rintro ⟨⟨way, leaf, leads, rfl, rfl⟩, present⟩
    exact ⟨leaf, way, leads, isNull_ofJson.mp present, rfl, rfl⟩
  · rintro ⟨leaf, way, leads, present, rfl, rfl⟩
    exact ⟨⟨way, leaf, leads, rfl, rfl⟩, isNull_ofJson.mpr present⟩

theorem run_reference_of_member (e : Evaluator) (depth : 1 ≤ e.config.maxDepth)
    {spaces : List (String × Json)} (distinct : (Fields.names spaces).Nodup)
    (containers : ∀ space ∈ spaces, space.2.isContainer = true) {space : String} {table : Json}
    (held : (space, table) ∈ spaces) (notCall : space ≠ "function") :
    ∃ params, Fields.find? params.tables space = some (flatten table) ∧
      ∀ key, e.run (.object [(space, key)]) (.object spaces) =
        resolve params space (Expression.referenceKey key) := by
  have read := Parameters.ofJson_object containers
  have found := Parameters.find?_tables distinct held
  refine ⟨_, found, fun key => run_reference e depth read ?_ notCall key⟩
  rw [Parameters.hasSpace, found]
  rfl

theorem references_reach_leaves (e : Evaluator) (depth : 1 ≤ e.config.maxDepth)
    {spaces : List (String × Json)} (distinct : HasDistinctNames (.object spaces))
    (containers : ∀ space ∈ spaces, space.2.isContainer = true)
    (components : ∀ space ∈ spaces, HasComponentNames space.2) {space : String} {table : Json}
    (held : (space, table) ∈ spaces) (notCall : space ≠ "function") :
    (∀ leaf way, LeafAt leaf table way → leaf ≠ .null →
      e.run (.object [(space, .string (joined way))]) (.object spaces) = .ok (.ofJson leaf)) ∧
    (∀ key, (∀ leaf way, LeafAt leaf table way → leaf ≠ .null → key ≠ joined way) →
      e.run (.object [(space, .string key)]) (.object spaces) =
        .error (.referenceNotFound space key)) ∧
    (∀ n : Int, -2 ^ 63 ≤ n → n < 2 ^ 63 →
      e.run (.object [(space, .integer n)]) (.object spaces) =
        e.run (.object [(space, .string (integerText n))]) (.object spaces)) ∧
    ∀ n : Int, ¬ (-2 ^ 63 ≤ n ∧ n < 2 ^ 63) →
      e.run (.object [(space, .integer n)]) (.object spaces) =
        e.run (.object [(space, .string (Binary64.ofInt n).text)]) (.object spaces) := by
  obtain ⟨params, found, run⟩ :=
    run_reference_of_member e depth (distinct _ .here) containers held notCall
  have reached {key : String} {v : Value} : params.get? space key = some v ↔
      ∃ leaf way, LeafAt leaf table way ∧ leaf ≠ .null ∧ key = joined way ∧ v = .ofJson leaf :=
    get?_eq_some_iff_leaf found (distinct.field held) (components _ held)
  refine ⟨fun leaf way leads present => ?_, fun key noLeaf => ?_, fun n low high => ?_,
    fun n exceeds => ?_⟩
  · rw [run, Expression.referenceKey, resolve_eq_ok]
    exact ⟨_, rfl, reached.mpr ⟨leaf, way, leads, present, rfl, rfl⟩⟩
  · have missing : params.get? space key = none := by
      rw [Option.eq_none_iff_forall_ne_some]
      intro v some
      obtain ⟨leaf, way, leads, present, same, -⟩ := reached.mp some
      exact noLeaf leaf way leads present same
    rw [run, Expression.referenceKey, resolve, missing]
  · rw [run, run, referenceKey_of_fits low high, Expression.referenceKey]
  · rw [run, run, referenceKey_of_exceeds exceeds, Expression.referenceKey]

theorem references_reach_leaves_indices :
    let e : Evaluator := .new { Config.standard 0 with maxDepth := 1 } Catalogue.empty.hostFunctions
    let table : Json := .object [("list", .array [.object [("0", .string "a")], .null]),
      ("7", .bool true)]
    let spaces : List (String × Json) := [("attr", table)]
    let run (key : Json) := e.run (.object [("attr", key)]) (.object spaces)
    (HasDistinctNames (.object spaces) ∧ HasComponentNames table) ∧
    (LeafAt (.string "a") table ["list", "0", "0"] ∧
      run (.string "list.0.0") = .ok (.string "a")) ∧
    run (.string "list.1") = .error (.referenceNotFound "attr" "list.1") ∧
    run (.integer 7) = .ok (.bool true) ∧
    run (.integer (2 ^ 63)) = run (.string (Binary64.ofInt (2 ^ 63)).text) := by
  intro e table spaces run
  have scalars {p : List String → Prop} : EveryObject p (.string "a") ∧ EveryObject p .null ∧
      EveryObject p (.bool true) :=
    ⟨everyObject_of_scalar rfl, everyObject_of_scalar rfl, everyObject_of_scalar rfl⟩
  have distinct : HasDistinctNames (.object spaces) := by
    simp [spaces, table, HasDistinctNames, everyObject_object, everyObject_array, scalars,
      Fields.names]
  have components : HasComponentNames table := by
    simp [table, HasComponentNames, everyObject_object, everyObject_array, scalars, Fields.names,
      IsComponent]
  have leads : LeafAt (.string "a") table ["list", "0", "0"] :=
    .field List.mem_cons_self (@LeafAt.item _ _ 0 _ _ rfl (.field List.mem_cons_self (.here rfl)))
  have null : LeafAt .null table ["list", "1"] :=
    .field List.mem_cons_self (@LeafAt.item _ _ 1 _ _ rfl (.here rfl))
  have seven : LeafAt (.bool true) table ["7"] :=
    .field (List.mem_cons_of_mem _ List.mem_cons_self) (.here rfl)
  obtain ⟨leaves, others, integers, floats⟩ := references_reach_leaves e (by decide) distinct
    (List.forall_mem_singleton.mpr rfl) (List.forall_mem_singleton.mpr components)
    List.mem_cons_self (by decide)
  refine ⟨⟨distinct, components⟩, ⟨leads, leaves _ _ leads (by simp)⟩, others _ ?_, ?_, ?_⟩
  · intro leaf way leadsToo present same
    obtain rfl := joined_injective (null.isComponent components) (leadsToo.isComponent components)
      same
    exact present (leadsToo.unique null (distinct.field List.mem_cons_self))
  · exact (integers 7 (by decide) (by decide)).trans (leaves _ _ seven (by simp))
  · exact floats (2 ^ 63) (by decide)

/-- An integer that has no 64 bits does not name the leaf of its decimal text. -/
theorem integer_key_misses_leaf :
    let e : Evaluator := .new (.standard 0) Catalogue.empty.hostFunctions
    let table : Json := .object [("9223372036854775808", .bool true)]
    LeafAt (.bool true) table [integerText (2 ^ 63)] ∧
      e.run (.object [("attr", .integer (2 ^ 63))]) (.object [("attr", table)]) =
        .error (.referenceNotFound "attr" "9.2233720368548E+18") := by
  intro e table
  exact ⟨.field List.mem_cons_self (.here rfl), rfl⟩

end Evaluator

end ConfigExpr
