import ConfigExpr.Expression.Basic

/-!
Nodes of an expression. Each node lists the expressions that it holds in the order in which they are
evaluated, and a node occurs in an expression if a way down through these lists leads to it. A call
names its function by a text or by nothing that counts. What passes from the parts of every node to
the node itself holds of all expressions.
-/
namespace ConfigExpr.Expression

/-- The expressions that a node holds, in the order of evaluation. -/
def children : Expression → List Expression
  | .sequence items => items
  | .object fields => fields.map Prod.snd
  | .call _ args => args
  | .scalar _ | .reference _ _ | .callWithoutList _ => []

inductive Occurs (node : Expression) : Expression → Prop where
  | here : Occurs node node
  | within {x part : Expression} (held : part ∈ x.children) (inside : Occurs node part) :
      Occurs node x

theorem forall_occurs {p : Expression → Prop} {x : Expression} :
    (∀ node, node.Occurs x → p node) ↔
      p x ∧ ∀ part ∈ x.children, ∀ node, node.Occurs part → p node := by
  refine ⟨fun all => ⟨all x .here, fun part held node inside => all node (.within held inside)⟩,
    fun parts node inside => ?_⟩
  cases inside with
  | here => exact parts.1
  | within held inside => exact parts.2 _ held node inside

def calledName? : Expression → Option String
  | .call (.named name) _ | .callWithoutList (.named name) => some name
  | .call (.invalid _) _ | .callWithoutList (.invalid _) => none
  | .scalar _ | .sequence _ | .object _ | .reference _ _ => none

theorem children_induction {motive : Expression → Prop}
    (step : ∀ x : Expression, (∀ part ∈ x.children, motive part) → motive x) (x : Expression) :
    motive x := by
  -- The recursor asks for a motive per kind of list; with membership in each, one step serves all.
  refine Expression.rec
    (motive_1 := motive)
    (motive_2 := fun items => ∀ part ∈ items, motive part)
    (motive_3 := fun fields => ∀ field ∈ fields, motive field.2)
    (motive_4 := fun field => motive field.2)
    ?scalar ?sequence ?object ?reference ?call ?callWithoutList
    ?noItems ?items ?noFields ?fields ?field x
  case scalar => exact fun v => step (.scalar v) (by simp [children])
  case sequence => exact fun items ih => step (.sequence items) ih
  case object =>
    intro fields ih
    refine step (.object fields) fun part held => ?_
    obtain ⟨field, member, rfl⟩ := List.mem_map.mp held
    exact ih field member
  case reference => exact fun space key => step (.reference space key) (by simp [children])
  case call => exact fun name args ih => step (.call name args) ih
  case callWithoutList => exact fun name => step (.callWithoutList name) (by simp [children])
  case noItems => simp
  case items => exact fun item rest head tail => List.forall_mem_cons.mpr ⟨head, tail⟩
  case noFields => simp
  case fields => exact fun field rest head tail => List.forall_mem_cons.mpr ⟨head, tail⟩
  case field => exact fun _ _ ih => ih

end ConfigExpr.Expression
