import ConfigExpr.Proofs.Evaluator.Agreement
import ConfigExpr.Proofs.Evaluator.Precedence

/-!
Parameters are data. A reference that resolves may be replaced by the literal of its value before
evaluation, so no value is read as a call or as a reference; and classification sees only the names
of the spaces.
-/
namespace ConfigExpr

namespace Expression

mutual

/-- Puts the literal of its value in place of every reference that resolves. -/
def substitute (params : Parameters) : Expression → Expression
  | .scalar v => .scalar v
  | .sequence items => .sequence (substituteItems params items)
  | .object fields => .object (substituteFields params fields)
  | .reference space (.key key) =>
    match params.get? space key with
    | some v => .scalar v
    | none => .reference space (.key key)
  | .reference space (.invalid json) => .reference space (.invalid json)
  | .call name args => .call name (substituteItems params args)
  | .callWithoutList name => .callWithoutList name

def substituteItems (params : Parameters) : List Expression → List Expression
  | [] => []
  | item :: rest => substitute params item :: substituteItems params rest

def substituteFields (params : Parameters) :
    List (String × Expression) → List (String × Expression)
  | [] => []
  | (name, item) :: rest => (name, substitute params item) :: substituteFields params rest

end

variable (params : Parameters)

theorem substituteItems_eq_map (items : List Expression) :
    substituteItems params items = items.map (substitute params) := by
  induction items with
  | nil => rfl
  | cons item rest ih => rw [substituteItems, ih, List.map_cons]

theorem substituteFields_fst (fields : List (String × Expression)) :
    (substituteFields params fields).map Prod.fst = fields.map Prod.fst := by
  induction fields with
  | nil => rfl
  | cons field rest ih => simp only [substituteFields, List.map_cons, ih]

theorem substituteFields_snd (fields : List (String × Expression)) :
    (substituteFields params fields).map Prod.snd =
      (fields.map Prod.snd).map (substitute params) := by
  induction fields with
  | nil => rfl
  | cons field rest ih => simp only [substituteFields, List.map_cons, ih]

end Expression

namespace Evaluator

theorem evaluate_substituted_reference (e : Evaluator) (params : Parameters) (space : String)
    (key : ReferenceKey) : e.evaluate params (.reference space key) =
      e.evaluate .empty ((Expression.reference space key).substitute params) := by
  cases key with
  | invalid json => rfl
  | key text =>
    rw [evaluate_reference, resolve, Expression.substitute]
    cases params.get? space text <;> rfl

theorem evaluate_substitute (e : Evaluator) (params : Parameters) (x : Expression) :
    e.evaluate params x = e.evaluate .empty (x.substitute params) := by
  induction x using Expression.children_induction with
  | step x ih =>
    have parts := evaluateItems_eq_map ih
    cases x with
    | scalar v => rfl
    | sequence items =>
      rw [Expression.children] at parts
      rw [Expression.substitute, Expression.substituteItems_eq_map, evaluate_sequence,
        evaluate_sequence, parts]
    | object fields =>
      rw [Expression.children] at parts
      rw [Expression.substitute, evaluate_object, evaluate_object,
        Expression.substituteFields_fst, Expression.substituteFields_snd, parts]
    | reference space key => exact evaluate_substituted_reference e params space key
    | call name args =>
      rw [Expression.children] at parts
      rw [Expression.substitute, Expression.substituteItems_eq_map, evaluate_call, evaluate_call,
        parts]
    | callWithoutList name => rfl

theorem classify_congr (e : Evaluator) {params₁ params₂ : Parameters}
    (spaces : ∀ space, params₁.hasSpace space = params₂.hasSpace space) (tree : Json) :
    e.classify params₁ tree = e.classify params₂ tree := by
  rw [classify, classify, funext spaces]

theorem hasSpace_congr {document₁ document₂ : Json} {params₁ params₂ : Parameters}
    (read₁ : Parameters.ofJson document₁ = .ok params₁)
    (read₂ : Parameters.ofJson document₂ = .ok params₂)
    (names : ∀ space, space ∈ Parameters.spacesOf document₁ ↔
      space ∈ Parameters.spacesOf document₂) (space : String) :
    params₁.hasSpace space = params₂.hasSpace space := by
  rw [Parameters.hasSpace_of_ofJson read₁, Parameters.hasSpace_of_ofJson read₂, Bool.eq_iff_iff,
    List.contains_iff_mem, List.contains_iff_mem]
  exact names space

theorem parameters_are_data (e : Evaluator) :
    (∀ (params : Parameters) (x : Expression),
      e.evaluate params x = e.evaluate .empty (x.substitute params)) ∧
    (∀ (document : Json) (params : Parameters), Parameters.ofJson document = .ok params →
      ∀ space table, (space, table) ∈ params.tables →
        ∀ key v, (key, v) ∈ table → v.isScalar = true) ∧
    (∀ params₁ params₂ : Parameters,
      (∀ space, params₁.hasSpace space = params₂.hasSpace space) →
        ∀ tree, e.classify params₁ tree = e.classify params₂ tree) ∧
    ∀ (document₁ document₂ : Json) (params₁ params₂ : Parameters),
      Parameters.ofJson document₁ = .ok params₁ → Parameters.ofJson document₂ = .ok params₂ →
      (∀ space, space ∈ Parameters.spacesOf document₁ ↔ space ∈ Parameters.spacesOf document₂) →
        ∀ tree, e.classify params₁ tree = e.classify params₂ tree := by
  refine ⟨evaluate_substitute e, fun document params read space table held key v member => ?_,
    fun params₁ params₂ spaces => classify_congr e spaces,
    fun document₁ document₂ params₁ params₂ read₁ read₂ names => ?_⟩
  · exact Parameters.isScalar_of_ofJson read held member
  · exact classify_congr e (hasSpace_congr read₁ read₂ names)

theorem parameters_are_data_injection :
    let e : Evaluator := .new (.standard 0) Catalogue.empty.hostFunctions
    let injected : Value := .string "time()"
    let document : Json :=
      .object [("attr", .object [("key", .string "time()"), ("gone", .null)])]
    let other : Json := .object [("attr", .array [])]
    let table : FlatTable := [("key", injected), ("gone", .null)]
    let params : Parameters := ⟨[("attr", table)]⟩
    let bare : Parameters := ⟨[("attr", [])]⟩
    let missing : Expression := .reference "attr" (.key "gone")
    e.evaluate params (.sequence [.reference "attr" (.key "key"), missing]) =
        e.evaluate .empty (.sequence [.scalar injected, missing]) ∧
      (Parameters.ofJson document = .ok params ∧ injected.isScalar = true) ∧
      (∀ space, params.hasSpace space = bare.hasSpace space) ∧
      Parameters.ofJson other = .ok bare ∧
      ∀ tree, e.classify params tree = e.classify bare tree := by
  intro e injected document other table params bare missing
  obtain ⟨substitution, scalars, -, documents⟩ := parameters_are_data e
  have read : Parameters.ofJson document = .ok params := rfl
  have spaces : ∀ space, params.hasSpace space = bare.hasSpace space :=
    hasSpace_congr read (rfl : Parameters.ofJson other = .ok bare) fun _ => Iff.rfl
  exact ⟨substitution params (.sequence [.reference "attr" (.key "key"), missing]),
    ⟨read, scalars document params read "attr" table List.mem_cons_self "key" injected
      List.mem_cons_self⟩,
    spaces, rfl, documents document other params bare read rfl fun _ => Iff.rfl⟩

end Evaluator

end ConfigExpr
