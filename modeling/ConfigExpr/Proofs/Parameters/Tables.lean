import ConfigExpr.Proofs.Parameters.Leaves

/-!
What a document of parameters becomes. A document is well formed if it is null or an object of
containers, and then its spaces are the names of its fields; a table is the list of the leaves of
its container, written in the order of the document.
-/
namespace ConfigExpr.Parameters

theorem hasSpace_iff {params : Parameters} {space : String} :
    params.hasSpace space = true ↔ space ∈ params.spaces := by
  rw [hasSpace, Option.isSome_iff_ne_none, ne_eq, Fields.find?_eq_none, Decidable.not_not]
  rfl

theorem get?_eq_some {params : Parameters} {space key : String} {v : Value} :
    params.get? space key = some v ↔ ∃ table, Fields.find? params.tables space = some table ∧
      Fields.find? table key = some v ∧ v.isNull = false := by
  unfold get?
  cases Fields.find? params.tables space with
  | none => simp
  | some table =>
    simp only [Option.some.injEq, exists_eq_left']
    cases Fields.find? table key with
    | none => simp
    | some found =>
      cases nothing : found.isNull with
      | false =>
        simp only [nothing, Bool.false_eq_true, if_false, Option.some.injEq]
        exact ⟨fun same => ⟨same, same ▸ nothing⟩, fun both => both.1⟩
      | true =>
        simp only [nothing, if_true, reduceCtorEq, Option.some.injEq, false_iff]
        rintro ⟨rfl, something⟩
        exact absurd (nothing.symm.trans something) (by decide)

/-- The names of the spaces in a document of parameters. -/
def spacesOf : Json → List String
  | .object spaces => Fields.names spaces
  | _ => []

/-- A document that holds tables: null, or an object whose fields are all containers. -/
def WellFormed : Json → Prop
  | .null => True
  | .object spaces => ∀ space ∈ spaces, space.2.isContainer = true
  | _ => False

theorem addTables_of_containers (params : Parameters) {spaces : List (String × Json)}
    (containers : ∀ space ∈ spaces, space.2.isContainer = true) :
    params.addTables spaces = .ok ⟨Fields.insertAll params.tables
      (spaces.map fun space => (space.1, FlatTable.flatten space.2))⟩ := by
  induction spaces generalizing params with
  | nil => rfl
  | cons space rest ih =>
    rw [List.forall_mem_cons] at containers
    rw [addTables, if_pos containers.1, ih _ containers.2]
    rfl

theorem addTables_of_scalar (params : Parameters) {spaces : List (String × Json)}
    (scalar : ¬ ∀ space ∈ spaces, space.2.isContainer = true) :
    ∃ space, params.addTables spaces = .error (.malformedParameters space) := by
  induction spaces generalizing params with
  | nil => exact (scalar (by simp)).elim
  | cons space rest ih =>
    by_cases first : space.2.isContainer = true
    · rw [addTables, if_pos first]
      exact ih _ fun others => scalar (List.forall_mem_cons.mpr ⟨first, others⟩)
    · exact ⟨space.1, by rw [addTables, if_neg first]⟩

theorem ofJson_object {spaces : List (String × Json)} (wellFormed : WellFormed (.object spaces)) :
    ofJson (.object spaces) =
      .ok ⟨Fields.ofList (spaces.map fun space => (space.1, FlatTable.flatten space.2))⟩ :=
  addTables_of_containers empty wellFormed

theorem ofJson_eq_ok_of_wellFormed {document : Json} (wellFormed : WellFormed document) :
    ∃ params, ofJson document = .ok params := by
  cases document with
  | null => exact ⟨empty, rfl⟩
  | object spaces => exact ⟨_, ofJson_object wellFormed⟩
  | bool _ | number _ | string _ | array _ => exact wellFormed.elim

theorem ofJson_eq_error_of_not_wellFormed {document : Json} (malformed : ¬ WellFormed document) :
    ∃ space, ofJson document = .error (.malformedParameters space) := by
  cases document with
  | null => exact (malformed trivial).elim
  | object spaces => exact addTables_of_scalar empty malformed
  | bool _ | number _ | string _ | array _ => exact ⟨"", rfl⟩

theorem wellFormed_of_ofJson_eq_ok {document : Json} {params : Parameters}
    (read : ofJson document = .ok params) : WellFormed document := by
  refine Classical.byContradiction fun malformed => ?_
  obtain ⟨space, failed⟩ := ofJson_eq_error_of_not_wellFormed malformed
  exact nomatch failed.symm.trans read

theorem hasSpace_of_ofJson {document : Json} {params : Parameters}
    (read : ofJson document = .ok params) :
    params.hasSpace = fun space => (spacesOf document).contains space := by
  funext space
  rw [Bool.eq_iff_iff, hasSpace_iff, List.contains_iff_mem]
  have wellFormed := wellFormed_of_ofJson_eq_ok read
  cases document with
  | null =>
    obtain rfl := Except.ok.inj read
    exact Iff.rfl
  | object spaces =>
    obtain rfl := Except.ok.inj (read.symm.trans (ofJson_object wellFormed))
    exact Fields.mem_names_ofList.trans (by simp [spacesOf, Fields.names])
  | bool _ | number _ | string _ | array _ => exact wellFormed.elim

theorem isScalar_of_ofJson {document : Json} {params : Parameters}
    (read : ofJson document = .ok params) {space : String} {table : FlatTable}
    (held : (space, table) ∈ params.tables) {entry : String × Value} (member : entry ∈ table) :
    entry.2.isScalar = true := by
  have wellFormed := wellFormed_of_ofJson_eq_ok read
  cases document with
  | null =>
    obtain rfl := Except.ok.inj read
    cases held
  | object spaces =>
    obtain rfl := Except.ok.inj (read.symm.trans (ofJson_object wellFormed))
    obtain ⟨written, -, same⟩ := List.mem_map.mp (Fields.mem_of_mem_ofList held)
    obtain ⟨-, rfl⟩ := Prod.mk.inj same
    exact FlatTable.isScalar_of_mem_flatten member
  | bool _ | number _ | string _ | array _ => exact wellFormed.elim

end ConfigExpr.Parameters
