import ConfigExpr.Proofs.Parameters.Ways

/-!
What a flat table holds. It is what is left when the leaves of a document are written in their order,
where a key that is written again keeps its place. The key of a leaf is its way joined with points,
except that empty names at the start of a way are lost: the path that they lead to is empty, like that
of the root, and no point is put behind it.
-/
namespace ConfigExpr.FlatTable
open Json

theorem flatten_eq_ofList (document : Json) :
    flatten document =
      Fields.ofList (document.leaves.map fun leaf => (leaf.1.foldl childPath "", .ofJson leaf.2)) := by
  rw [flatten, flattenInto_eq_insertAll, leavesAt_eq_map]
  rfl

theorem joined_dropWhile_empty {way : List String} (alone : way.head? = some "" → way = [""]) :
    joined (way.dropWhile (· == "")) = joined way := by
  cases way with
  | nil => rfl
  | cons name rest =>
    by_cases empty : name = ""
    · rw [alone (congrArg some empty)]
      rfl
    · rw [List.dropWhile_cons, if_neg (mt eq_of_beq empty)]

/-- The leaves are written in their order and nothing else is. Their keys are their joined ways, as
long as a way that starts with an empty name does not go on. -/
theorem flatten_writes_leaves (document : Json) :
    flatten document = Fields.ofList (document.leaves.map fun leaf =>
      (joined (leaf.1.dropWhile (· == "")), .ofJson leaf.2)) ∧
    ((∀ leaf ∈ document.leaves, leaf.1.head? = some "" → leaf.1 = [""]) →
      flatten document =
        Fields.ofList (document.leaves.map fun leaf => (joined leaf.1, .ofJson leaf.2))) := by
  have written : flatten document = Fields.ofList (document.leaves.map fun leaf =>
      (joined (leaf.1.dropWhile (· == "")), .ofJson leaf.2)) := by
    simp only [flatten_eq_ofList, foldl_childPath_empty]
  refine ⟨written, fun alone => ?_⟩
  rw [written]
  congr 1
  refine List.map_congr_left fun leaf member => ?_
  rw [joined_dropWhile_empty (alone leaf member)]

theorem flatten_writes_leaves_collision :
    let document : Json := .object [("a", .object [("", .array [.bool true, .array []])]),
      ("", .null), ("a..0", .string "later")]
    (∀ leaf ∈ document.leaves, leaf.1.head? = some "" → leaf.1 = [""]) ∧
      document.leaves.map (fun leaf => joined leaf.1) = ["a..0", "", "a..0"] ∧
      flatten document = [("a..0", .string "later"), ("", .null)] := by
  intro document
  have ways : document.leaves =
      [(["a", "", "0"], .bool true), ([""], .null), (["a..0"], .string "later")] := rfl
  have alone : ∀ leaf ∈ document.leaves, leaf.1.head? = some "" → leaf.1 = [""] := by
    rw [ways]
    simp
  refine ⟨alone, rfl, ?_⟩
  rw [(flatten_writes_leaves document).2 alone]
  rfl

/-- The point behind a leading empty name is missing, although there is one behind an empty name
further down. -/
theorem flatten_loses_leading_empty_name :
    let document : Json := .object [("", .object [("a", .bool true)])]
    document.leaves = [(["", "a"], .bool true)] ∧ joined ["", "a"] = ".a" ∧
      flatten document = [("a", .bool true)] ∧
      flatten document ≠
        Fields.ofList (document.leaves.map fun leaf => (joined leaf.1, .ofJson leaf.2)) := by
  intro document
  refine ⟨rfl, rfl, rfl, fun same => ?_⟩
  have names := congrArg Fields.names same
  exact absurd names (by decide)

end ConfigExpr.FlatTable
