import ConfigExpr.Proofs.Evaluator.Steps

/-!
Two evaluations side by side. If every item of one list evaluates like its image in another, the
lists evaluate alike, error or not; and two evaluators that agree on what each node asks of them, its
name and its function, agree on the whole expression. Where they may differ by an excused error, such
an error ends the whole evaluation. They agree on a run if they agree on the names that the calls of
the classified tree give.
-/
namespace ConfigExpr.Evaluator
open Outcome

variable {e e₁ e₂ : Evaluator} {params params₁ params₂ : Parameters} {excused : EvalError → Prop}

theorem evaluateItems_eq_map {items : List Expression} {image : Expression → Expression}
    (same : ∀ item ∈ items, e₁.evaluate params₁ item = e₂.evaluate params₂ (image item)) :
    e₁.evaluateItems params₁ items = e₂.evaluateItems params₂ (items.map image) := by
  induction items with
  | nil => rfl
  | cons item rest ih =>
    rw [List.forall_mem_cons] at same
    rw [List.map_cons, evaluateItems_cons, evaluateItems_cons, same.1, ih same.2]

theorem evaluateItems_sameUnless {items : List Expression}
    (each : ∀ item ∈ items,
      SameUnless excused (e₁.evaluate params item) (e₂.evaluate params item)) :
    SameUnless excused (e₁.evaluateItems params items) (e₂.evaluateItems params items) := by
  induction items with
  | nil => exact .of_eq rfl
  | cons item rest ih =>
    rw [List.forall_mem_cons] at each
    rw [evaluateItems_cons, evaluateItems_cons]
    exact each.1.bind fun v _ => (ih each.2).map (v :: ·)

/-- Two evaluators give a node the same name, unless the first refuses it in an excused way, and
apply the same function to the same values. -/
def AgreeUnless (excused : EvalError → Prop) (e₁ e₂ : Evaluator) : Expression → Prop
  | .call name _ => SameUnless excused (e₁.allowedName name) (e₂.allowedName name) ∧
      ∀ text, e₁.allowedName name = .ok text → e₁.apply text = e₂.apply text
  | .callWithoutList name => SameUnless excused (e₁.allowedName name) (e₂.allowedName name)
  | .scalar _ | .sequence _ | .object _ | .reference _ _ => True

theorem evaluate_sameUnless {x : Expression}
    (agree : ∀ node, node.Occurs x → AgreeUnless excused e₁ e₂ node) :
    SameUnless excused (e₁.evaluate params x) (e₂.evaluate params x) := by
  induction x using Expression.children_induction with
  | step x ih =>
    -- What occurs in a part occurs in the node, so the agreement passes down.
    have parts : SameUnless excused (e₁.evaluateItems params x.children)
        (e₂.evaluateItems params x.children) :=
      evaluateItems_sameUnless fun part held => ih part held fun node inside =>
        agree node (.within held inside)
    have here := agree x .here
    cases x with
    | scalar _ | reference _ _ => exact .of_eq rfl
    | sequence items =>
      rw [evaluate_sequence, evaluate_sequence]
      exact parts.map Value.array
    | object fields =>
      rw [evaluate_object, evaluate_object]
      exact parts.map _
    | callWithoutList name =>
      have names : SameUnless excused (e₁.allowedName name) (e₂.allowedName name) := here
      rw [evaluate_callWithoutList, evaluate_callWithoutList]
      exact names.bind fun _ _ => .of_eq rfl
    | call name args =>
      obtain ⟨names, functions⟩ := here
      rw [evaluate_call, evaluate_call]
      refine names.bind fun text allowed => parts.bind fun values _ => ?_
      exact .of_eq (congrFun (functions text allowed) values)

/-- Two evaluators give a node the same name and apply the same function to the same values. -/
def AgreeOn (e₁ e₂ : Evaluator) : Expression → Prop
  | .call name _ => e₁.allowedName name = e₂.allowedName name ∧
      ∀ text, e₁.allowedName name = .ok text → e₁.apply text = e₂.apply text
  | .callWithoutList name => e₁.allowedName name = e₂.allowedName name
  | .scalar _ | .sequence _ | .object _ | .reference _ _ => True

theorem AgreeOn.agreeUnless {node : Expression} (agree : AgreeOn e₁ e₂ node) :
    AgreeUnless excused e₁ e₂ node := by
  cases node with
  | call name args => exact ⟨.of_eq agree.1, agree.2⟩
  | callWithoutList name => exact .of_eq agree
  | scalar _ | sequence _ | object _ | reference _ _ => exact trivial

theorem evaluate_congr {x : Expression} (agree : ∀ node, node.Occurs x → AgreeOn e₁ e₂ node) :
    e₁.evaluate params x = e₂.evaluate params x :=
  SameUnless.eq_of_false (evaluate_sameUnless fun node inside => (agree node inside).agreeUnless)

/-- Every name that a call of the classified tree gives has a property. -/
def CallsOnly (e : Evaluator) (tree document : Json) (p : String → Prop) : Prop :=
  ∀ params x, Parameters.ofJson document = .ok params → e.classify params tree = .ok x →
    ∀ node : Expression, node.Occurs x → ∀ name, node.calledName? = some name → p name

theorem classify_eq_of_maxDepth (depth : e₁.config.maxDepth = e₂.config.maxDepth) :
    e₁.classify = e₂.classify := by
  funext params tree
  rw [classify, classify, depth]

theorem run_sameUnless {tree document : Json} (depth : e₁.config.maxDepth = e₂.config.maxDepth)
    (each : ∀ params x, Parameters.ofJson document = .ok params → e₁.classify params tree = .ok x →
      SameUnless excused (e₁.evaluate params x) (e₂.evaluate params x)) :
    SameUnless excused (e₁.run tree document) (e₂.run tree document) := by
  rw [run, run]
  refine SameUnless.bind (.of_eq rfl) fun params read => ?_
  rw [runWith, runWith, ← classify_eq_of_maxDepth depth]
  exact SameUnless.bind (.of_eq rfl) fun x found => each params x read found

/-- Two evaluators treat a name alike: both refuse it, or both allow it and apply one function. -/
def AgreeOnName (e₁ e₂ : Evaluator) (name : String) : Prop :=
  (name ∈ e₁.allowed ↔ name ∈ e₂.allowed) ∧ (name ∈ e₁.allowed → e₁.apply name = e₂.apply name)

theorem AgreeOnName.allowedName {name : String} (agree : AgreeOnName e₁ e₂ name) :
    e₁.allowedName (.named name) = e₂.allowedName (.named name) := by
  simp only [Evaluator.allowedName, Allowlist.allows, List.contains_eq_mem, agree.1]

theorem agreeOn_of_calledName {node : Expression}
    (agree : ∀ name, node.calledName? = some name → AgreeOnName e₁ e₂ name) :
    AgreeOn e₁ e₂ node := by
  cases node with
  | call name args =>
    cases name with
    | named name =>
      refine ⟨(agree name rfl).allowedName, fun text allowed => ?_⟩
      obtain ⟨⟨⟩, listed⟩ := allowedName_eq_ok.mp allowed
      exact (agree name rfl).2 listed
    | invalid json => exact ⟨rfl, fun text allowed => nomatch allowed⟩
  | callWithoutList name =>
    cases name with
    | named name => exact (agree name rfl).allowedName
    | invalid json => exact rfl
  | scalar _ | sequence _ | object _ | reference _ _ => exact trivial

theorem run_congr_of_calls {tree document : Json}
    (depth : e₁.config.maxDepth = e₂.config.maxDepth)
    (calls : e₁.CallsOnly tree document (AgreeOnName e₁ e₂)) :
    e₁.run tree document = e₂.run tree document :=
  SameUnless.eq_of_false <| run_sameUnless depth fun params x read found =>
    .of_eq <| evaluate_congr fun node inside =>
      agreeOn_of_calledName (calls params x read found node inside)

theorem callsOnly_of_classified {tree document : Json} {p : String → Prop} {x : Expression}
    (classified : ∀ params, e.classify params tree = .ok x)
    (each : ∀ node : Expression, node.Occurs x → ∀ name, node.calledName? = some name → p name) :
    e.CallsOnly tree document p := by
  intro params y _ found
  obtain rfl := Except.ok.inj ((classified params).symm.trans found)
  exact each

end ConfigExpr.Evaluator
