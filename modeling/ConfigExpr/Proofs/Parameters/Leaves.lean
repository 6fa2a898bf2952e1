import ConfigExpr.Parameters
import ConfigExpr.Proofs.Fields

/-!
The leaves of a container. Flattening writes the scalars of a document one after another, each under
the names and indices on the way to it, and writes nothing else.
-/
namespace ConfigExpr.FlatTable
open Fields

mutual

/-- The scalars of a document with their joined keys, in the order of the document. -/
def leavesAt (path : String) : Json → List (String × Value)
  | .object fields => leavesOfFields path fields
  | .array items => leavesOfItems path 0 items
  | .null => [(path, .null)]
  | .bool b => [(path, .bool b)]
  | .number n => [(path, .ofNumber n)]
  | .string s => [(path, .string s)]

def leavesOfFields (path : String) : List (String × Json) → List (String × Value)
  | [] => []
  | (name, item) :: rest => leavesAt (childPath path name) item ++ leavesOfFields path rest

def leavesOfItems (path : String) (index : Nat) : List Json → List (String × Value)
  | [] => []
  | item :: rest =>
    leavesAt (childPath path (indexName index)) item ++ leavesOfItems path (index + 1) rest

end

mutual

theorem flattenInto_eq_insertAll (table : FlatTable) (path : String) : ∀ document : Json,
    flattenInto table path document = insertAll table (leavesAt path document)
  | .null | .bool _ | .number _ | .string _ => rfl
  | .object fields => flattenFields_eq_insertAll table path fields
  | .array items => flattenItems_eq_insertAll table path 0 items

theorem flattenFields_eq_insertAll (table : FlatTable) (path : String) :
    ∀ fields : List (String × Json),
      flattenFields table path fields = insertAll table (leavesOfFields path fields)
  | [] => rfl
  | (name, item) :: rest => by
    rw [flattenFields, flattenInto_eq_insertAll table (childPath path name) item,
      flattenFields_eq_insertAll _ path rest, leavesOfFields, insertAll_append]

theorem flattenItems_eq_insertAll (table : FlatTable) (path : String) (index : Nat) :
    ∀ items : List Json,
      flattenItems table path index items = insertAll table (leavesOfItems path index items)
  | [] => rfl
  | item :: rest => by
    rw [flattenItems, flattenInto_eq_insertAll table (childPath path (indexName index)) item,
      flattenItems_eq_insertAll _ path (index + 1) rest, leavesOfItems, insertAll_append]

end

theorem isScalar_ofNumber (n : JsonNumber) : (Value.ofNumber n).isScalar = true := by
  cases n with
  | integer n =>
    rw [Value.ofNumber]
    split <;> rfl
  | float x finite => rfl

mutual

theorem isScalar_of_mem_leavesAt {path : String} {leaf : String × Value} : ∀ document : Json,
    leaf ∈ leavesAt path document → leaf.2.isScalar = true
  | .null | .bool _ | .string _ => fun member => List.mem_singleton.mp member ▸ rfl
  | .number n => fun member => List.mem_singleton.mp member ▸ isScalar_ofNumber n
  | .object fields => isScalar_of_mem_leavesOfFields fields
  | .array items => isScalar_of_mem_leavesOfItems items

theorem isScalar_of_mem_leavesOfFields {path : String} {leaf : String × Value} :
    ∀ fields : List (String × Json),
      leaf ∈ leavesOfFields path fields → leaf.2.isScalar = true
  | [] => fun member => nomatch member
  | (_, item) :: rest => fun member =>
    (List.mem_append.mp member).elim (isScalar_of_mem_leavesAt item)
      (isScalar_of_mem_leavesOfFields rest)

theorem isScalar_of_mem_leavesOfItems {path : String} {index : Nat} {leaf : String × Value} :
    ∀ items : List Json,
      leaf ∈ leavesOfItems path index items → leaf.2.isScalar = true
  | [] => fun member => nomatch member
  | item :: rest => fun member =>
    (List.mem_append.mp member).elim (isScalar_of_mem_leavesAt item)
      (isScalar_of_mem_leavesOfItems rest)

end

theorem isScalar_of_mem_flatten {document : Json} {entry : String × Value}
    (member : entry ∈ flatten document) : entry.2.isScalar = true := by
  rw [flatten, flattenInto_eq_insertAll] at member
  rcases mem_of_mem_insertAll member with none | leaf
  · cases none
  · exact isScalar_of_mem_leavesAt document leaf

end ConfigExpr.FlatTable
