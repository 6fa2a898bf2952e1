import ConfigExpr.Proofs.Expression.Node

/-!
Positions in an expression. A position is the way down to a node, by the index of a part at each node
that it passes. The expression at a position can be replaced; positions that lie apart are ordered as
their nodes are evaluated.
-/
namespace ConfigExpr.Expression

abbrev Position := List Nat

/-- The expression at a position, if the way leads to one. -/
def at? : Expression → Position → Option Expression
  | x, [] => some x
  | x, i :: rest => x.children[i]?.bind fun part => part.at? rest

/-- The node with other parts in place of those that it holds. -/
def withChildren : Expression → List Expression → Expression
  | .sequence _, parts => .sequence parts
  | .object fields, parts => .object ((fields.map Prod.fst).zip parts)
  | .call name _, parts => .call name parts
  | .scalar v, _ => .scalar v
  | .reference space key, _ => .reference space key
  | .callWithoutList name, _ => .callWithoutList name

/-- Puts an expression in place of the one at a position; a way that leads nowhere changes nothing. -/
def replaceAt (new : Expression) : Expression → Position → Expression
  | _, [] => new
  | x, i :: rest => x.withChildren (x.children.modify i fun part => replaceAt new part rest)

theorem children_withChildren {x : Expression} {parts : List Expression}
    (count : parts.length = x.children.length) : (x.withChildren parts).children = parts := by
  cases x with
  | sequence items => rfl
  | object fields =>
    rw [children, List.length_map] at count
    exact List.map_snd_zip (by rw [List.length_map]; exact Nat.le_of_eq count)
  | call name args => rfl
  | scalar _ | reference _ _ | callWithoutList _ => exact (List.eq_nil_of_length_eq_zero count).symm

theorem children_replaceAt (new x : Expression) (i : Nat) (rest : Position) :
    (replaceAt new x (i :: rest)).children =
      x.children.modify i fun part => replaceAt new part rest := by
  rw [replaceAt, children_withChildren (List.length_modify ..)]

theorem at?_replaceAt (new : Expression) {x old : Expression} {p : Position}
    (found : x.at? p = some old) : (replaceAt new x p).at? p = some new := by
  induction p generalizing x with
  | nil => rfl
  | cons i rest ih =>
    obtain ⟨part, held, below⟩ := Option.bind_eq_some_iff.mp found
    rw [at?, children_replaceAt, List.getElem?_modify_eq, held]
    exact ih below

section Split
variable {x part : Expression} {before after : List Expression}

theorem children_replaceAt_same (new : Expression) (rest : Position)
    (parts : x.children = before ++ part :: after) :
    (replaceAt new x (before.length :: rest)).children =
      before ++ replaceAt new part rest :: after := by
  rw [children_replaceAt, parts]
  exact List.modifyTailIdx_add _ 0 before (part :: after)

theorem children_replaceAt_later (new : Expression) {j : Nat} (rest : Position)
    (parts : x.children = before ++ part :: after) (later : before.length < j) :
    ∃ others, (replaceAt new x (j :: rest)).children = before ++ part :: others := by
  obtain ⟨k, rfl⟩ := Nat.exists_eq_add_of_lt later
  refine ⟨after.modify k fun part => replaceAt new part rest, ?_⟩
  rw [children_replaceAt, parts]
  exact List.modifyTailIdx_add _ (k + 1) before (part :: after)

end Split

/-- One position comes before another if they part at some node and the first goes on to an earlier
part of it. -/
inductive Precedes : Position → Position → Prop where
  | fork {i j : Nat} {p q : Position} (earlier : i < j) : Precedes (i :: p) (j :: q)
  | within {i : Nat} {p q : Position} (before : Precedes p q) : Precedes (i :: p) (i :: q)

end ConfigExpr.Expression
