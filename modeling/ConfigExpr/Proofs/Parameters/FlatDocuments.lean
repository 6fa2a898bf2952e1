import ConfigExpr.Proofs.Parameters.Flattening
import ConfigExpr.Proofs.Value.Conversions

/-!
Flat tables as documents. A document whose fields are distinct scalars is flattened to those fields:
below the root no path is joined, so points and empty names in its keys stay as they are. A table
that flattening made is such a document again, and each of its values is found again in it.
-/
namespace ConfigExpr.FlatTable
open Json

def toDocument (table : FlatTable) : Json :=
  (Value.object table).toJson

theorem leavesAt_of_scalar {path : String} {document : Json}
    (scalar : document.isContainer = false) :
    leavesAt path document = [(path, .ofJson document)] := by
  cases document with
  | array _ | object _ => cases scalar
  | null | bool _ | number _ | string _ => rfl

theorem leavesOfFields_of_scalars {fields : List (String × Json)}
    (scalars : ∀ field ∈ fields, field.2.isContainer = false) :
    leavesOfFields "" fields = Value.ofJsonFields fields := by
  induction fields with
  | nil => rfl
  | cons field rest ih =>
    rw [List.forall_mem_cons] at scalars
    rw [leavesOfFields, leavesAt_of_scalar scalars.1, ih scalars.2, childPath, if_pos rfl,
      Value.ofJsonFields, List.singleton_append]

theorem names_ofJsonFields (fields : List (String × Json)) :
    Fields.names (Value.ofJsonFields fields) = Fields.names fields := by
  induction fields with
  | nil => rfl
  | cons field rest ih => exact congrArg (field.1 :: ·) ih

theorem flatten_of_scalars {fields : List (String × Json)} (distinct : (Fields.names fields).Nodup)
    (scalars : ∀ field ∈ fields, field.2.isContainer = false) :
    flatten (.object fields) = Value.ofJsonFields fields := by
  rw [flatten, flattenInto_eq_insertAll, leavesAt, leavesOfFields_of_scalars scalars]
  exact Fields.ofList_of_nodup ((names_ofJsonFields fields).symm ▸ distinct)

structure IsFlat (table : FlatTable) : Prop where
  distinct : (Fields.names table).Nodup
  scalars : ∀ entry ∈ table, entry.2.isScalar = true
  lossless : ∀ entry ∈ table, entry.2.IsLossless

theorem isContainer_toJson {v : Value} (scalar : v.isScalar = true) :
    v.toJson.isContainer = false := by
  cases v with
  | array _ | object _ => cases scalar
  | float x =>
    rw [Value.toJson, Json.ofFloat]
    split <;> rfl
  | null | bool _ | integer _ | string _ | bytes _ => rfl

theorem names_toJsonFields (table : FlatTable) :
    Fields.names (Value.toJsonFields table) = Fields.names table := by
  induction table with
  | nil => rfl
  | cons entry rest ih => exact congrArg (entry.1 :: ·) ih

theorem isContainer_of_mem_toJsonFields {table : FlatTable}
    (scalars : ∀ entry ∈ table, entry.2.isScalar = true) :
    ∀ field ∈ Value.toJsonFields table, field.2.isContainer = false := by
  induction table with
  | nil => exact List.forall_mem_nil _
  | cons entry rest ih =>
    rw [List.forall_mem_cons] at scalars
    rw [Value.toJsonFields, List.forall_mem_cons]
    exact ⟨isContainer_toJson scalars.1, ih scalars.2⟩

theorem flatten_toDocument {table : FlatTable} (flat : IsFlat table) :
    flatten (toDocument table) = table := by
  have distinct : (Fields.names (Value.toJsonFields table)).Nodup :=
    (names_toJsonFields table).symm ▸ flat.distinct
  rw [toDocument, Value.toJson,
    flatten_of_scalars distinct (isContainer_of_mem_toJsonFields flat.scalars)]
  exact (Value.ofJsonFields_toJsonFields_eq_iff table).mpr flat.lossless

theorem LeafAt.everyInteger {p : Int → Prop} {leaf document : Json} {way : List String}
    (leads : LeafAt leaf document way) (whole : EveryInteger p document) : EveryInteger p leaf := by
  induction leads with
  | here _ => exact whole
  | field held _ ih => exact ih (everyInteger_object.mp whole _ held)
  | item held _ ih => exact ih (everyInteger_array.mp whole _ (List.mem_of_getElem? held))

theorem isFlat_flatten {document : Json} (words : document.IntegersAreWords) :
    IsFlat (flatten document) where
  distinct := by
    rw [flatten_eq_ofList]
    exact Fields.nodup_names_ofList _
  scalars _ member := isScalar_of_mem_flatten member
  lossless entry member := by
    rw [flatten, flattenInto_eq_insertAll] at member
    have written := (Fields.mem_of_mem_insertAll member).resolve_left List.not_mem_nil
    obtain ⟨way, leaf, leads, -, same⟩ := mem_leavesAt_iff.mp written
    rw [same]
    exact Value.isLossless_ofJson leaf (LeafAt.everyInteger leads words)

/-- Flattening the document of a flattened table gives the table again, and a document that is flat
already, whatever its names are, is flattened to its own fields. All documents that are read have
such integers (`integersAreWords_of_parse`). -/
theorem flattening_is_idempotent :
    (∀ document : Json, document.IntegersAreWords →
      flatten (toDocument (flatten document)) = flatten document) ∧
    ∀ fields : List (String × Json), (Fields.names fields).Nodup →
      (∀ field ∈ fields, field.2.isContainer = false) →
        flatten (.object fields) = Value.ofJsonFields fields ∧
          ((Json.object fields).IntegersFit →
            toDocument (flatten (.object fields)) = .object fields) := by
  refine ⟨fun document words => flatten_toDocument (isFlat_flatten words), ?_⟩
  intro fields distinct scalars
  have unchanged := flatten_of_scalars distinct scalars
  refine ⟨unchanged, fun fits => ?_⟩
  rw [unchanged]
  exact Value.toJson_ofJson (.object fields) fits

theorem flattening_is_idempotent_points :
    let document : Json := .object [("a", .object [("", .integer (2 ^ 63)), ("b", .array [.null])]),
      ("", .bool true)]
    let fields : List (String × Json) := [("a.", .integer 1), ("", .null), ("a.b.0", .string "")]
    document.IntegersAreWords ∧
      Fields.names (flatten document) = ["a.", "a.b.0", ""] ∧
      flatten (toDocument (flatten document)) = flatten document ∧
      toDocument (flatten (.object fields)) = .object fields := by
  intro document fields
  have words : document.IntegersAreWords := by
    refine everyInteger_object.mpr (List.forall_mem_cons.mpr ⟨everyInteger_object.mpr ?_, ?_⟩)
    · refine List.forall_mem_cons.mpr ⟨everyInteger_integer.mpr (by decide), ?_⟩
      exact List.forall_mem_singleton.mpr
        (everyInteger_array.mpr (List.forall_mem_singleton.mpr fun _ inside => nomatch inside))
    · exact List.forall_mem_singleton.mpr fun _ inside => nomatch inside
  have fits : (Json.object fields).IntegersFit := by
    refine integersFit_object.mpr
      (List.forall_mem_cons.mpr ⟨integersFit_integer.mpr (by decide), ?_⟩)
    exact List.forall_mem_cons.mpr ⟨fun _ inside => (nomatch inside),
      List.forall_mem_singleton.mpr fun _ inside => nomatch inside⟩
  obtain ⟨again, flat⟩ := flattening_is_idempotent
  exact ⟨words, rfl, again document words,
    (flat fields (by decide) (by simp [fields, isContainer, Json.integer])).2 fits⟩

end ConfigExpr.FlatTable
