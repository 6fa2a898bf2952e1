import ConfigExpr.Proofs.Json.Parts
import ConfigExpr.Value.Basic

/-!
Documents as values. The value of a document has the outline of the document, and a document whose
integers fit is found again in its value.
-/
namespace ConfigExpr

/-- The containers of a tree: how long its arrays are, and the names in its objects in their order. -/
inductive Outline where
  | leaf
  | array (items : List Outline)
  | object (fields : List (String × Outline))

namespace Json

mutual

def outline : Json → Outline
  | .null | .bool _ | .number _ | .string _ => .leaf
  | .array items => .array (outlineItems items)
  | .object fields => .object (outlineFields fields)

def outlineItems : List Json → List Outline
  | [] => []
  | item :: rest => outline item :: outlineItems rest

def outlineFields : List (String × Json) → List (String × Outline)
  | [] => []
  | (name, item) :: rest => (name, outline item) :: outlineFields rest

end

end Json

namespace Value

mutual

def outline : Value → Outline
  | .null | .bool _ | .integer _ | .float _ | .string _ | .bytes _ => .leaf
  | .array items => .array (outlineItems items)
  | .object fields => .object (outlineFields fields)

def outlineItems : List Value → List Outline
  | [] => []
  | item :: rest => outline item :: outlineItems rest

def outlineFields : List (String × Value) → List (String × Outline)
  | [] => []
  | (name, item) :: rest => (name, outline item) :: outlineFields rest

end

theorem ofNumber_of_fits {n : Int} (low : -2 ^ 63 ≤ n) (high : n < 2 ^ 63) :
    ofNumber (.integer n) = .integer (Int64.ofInt n) := by
  simp only [ofNumber, Bool.and_eq_true, decide_eq_true_eq, if_pos (And.intro low high)]

theorem ofNumber_of_exceeds {n : Int} (exceeds : ¬ (-2 ^ 63 ≤ n ∧ n < 2 ^ 63)) :
    ofNumber (.integer n) = .float (.ofInt n) := by
  simp only [ofNumber, Bool.and_eq_true, decide_eq_true_eq, if_neg exceeds]

theorem outline_ofNumber (n : JsonNumber) : (ofNumber n).outline = .leaf := by
  cases n with
  | integer n =>
    rw [ofNumber]
    split <;> rfl
  | float x finite => rfl

mutual

theorem outline_ofJson : ∀ document : Json, (ofJson document).outline = document.outline
  | .null | .bool _ | .string _ => rfl
  | .number n => outline_ofNumber n
  | .array items => congrArg Outline.array (outlineItems_ofJsonItems items)
  | .object fields => congrArg Outline.object (outlineFields_ofJsonFields fields)

theorem outlineItems_ofJsonItems : ∀ items : List Json,
    outlineItems (ofJsonItems items) = Json.outlineItems items
  | [] => rfl
  | item :: rest => by
    rw [ofJsonItems, outlineItems, Json.outlineItems, outline_ofJson item,
      outlineItems_ofJsonItems rest]

theorem outlineFields_ofJsonFields : ∀ fields : List (String × Json),
    outlineFields (ofJsonFields fields) = Json.outlineFields fields
  | [] => rfl
  | (name, item) :: rest => by
    rw [ofJsonFields, outlineFields, Json.outlineFields, outline_ofJson item,
      outlineFields_ofJsonFields rest]

end

theorem toJson_ofNumber {n : JsonNumber} (fits : Json.IntegersFit (.number n)) :
    (ofNumber n).toJson = .number n := by
  cases n with
  | integer n =>
    obtain ⟨low, high⟩ := Json.integersFit_integer.mp fits
    rw [ofNumber_of_fits low high, toJson, Int64.toInt_ofInt_of_le low high]
    rfl
  | float x finite => exact dif_pos finite

mutual

theorem toJson_ofJson : ∀ document : Json, document.IntegersFit → (ofJson document).toJson = document
  | .null, _ | .bool _, _ | .string _, _ => rfl
  | .number _, fits => toJson_ofNumber fits
  | .array items, fits =>
    congrArg Json.array (toJsonItems_ofJsonItems items (Json.integersFit_array.mp fits))
  | .object fields, fits =>
    congrArg Json.object (toJsonFields_ofJsonFields fields (Json.integersFit_object.mp fits))

theorem toJsonItems_ofJsonItems : ∀ items : List Json, (∀ item ∈ items, item.IntegersFit) →
    toJsonItems (ofJsonItems items) = items
  | [], _ => rfl
  | item :: rest, fits => by
    rw [List.forall_mem_cons] at fits
    rw [ofJsonItems, toJsonItems, toJson_ofJson item fits.1, toJsonItems_ofJsonItems rest fits.2]

theorem toJsonFields_ofJsonFields : ∀ fields : List (String × Json),
    (∀ field ∈ fields, field.2.IntegersFit) → toJsonFields (ofJsonFields fields) = fields
  | [], _ => rfl
  | (name, item) :: rest, fits => by
    rw [List.forall_mem_cons] at fits
    rw [ofJsonFields, toJsonFields, toJson_ofJson item fits.1, toJsonFields_ofJsonFields rest fits.2]

end

end Value

end ConfigExpr
