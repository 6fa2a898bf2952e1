import ConfigExpr.Proofs.Evaluator.Steps
import ConfigExpr.Proofs.Expression.Position

/-!
Where an evaluation fails. A failed evaluation has one position at which the error is raised: all
that is evaluated before it succeeds, and nothing that comes after it is looked at. So whatever stands
there may be replaced and the error stays the same.
-/
namespace ConfigExpr.Evaluator
open Expression

variable {e : Evaluator} {params : Parameters}

/-- The position at which an evaluation stops with an error that the node there raises. -/
inductive FailsAt (e : Evaluator) (params : Parameters) :
    Expression → Position → EvalError → Prop where
  | here {x : Expression} {fault : EvalError} (raised : e.Raises params x fault) :
      FailsAt e params x [] fault
  | within {x part : Expression} {before after : List Expression} {values : List Value}
      {p : Position} {fault : EvalError} (entered : e.Enters x)
      (parts : x.children = before ++ part :: after)
      (done : e.evaluateItems params before = .ok values)
      (below : FailsAt e params part p fault) : FailsAt e params x (before.length :: p) fault

theorem evaluate_of_failsAt {x : Expression} {p : Position} {fault : EvalError}
    (failed : e.FailsAt params x p fault) : e.evaluate params x = .error fault := by
  induction failed with
  | here raised => exact evaluate_of_raises raised
  | within entered parts done _ ih =>
    exact evaluate_of_children entered (evaluateItems_eq_error.mpr ⟨_, _, _, _, parts, done, ih⟩)

theorem exists_failsAt {x : Expression} {fault : EvalError}
    (failed : e.evaluate params x = .error fault) : ∃ p, e.FailsAt params x p fault := by
  induction x using Expression.children_induction with
  | step x ih =>
    rcases evaluate_eq_error.mp failed with raised | ⟨entered, below⟩
    · exact ⟨[], .here raised⟩
    · obtain ⟨before, part, after, values, parts, done, failed⟩ := evaluateItems_eq_error.mp below
      have held : part ∈ x.children := parts ▸ List.mem_append_right before List.mem_cons_self
      obtain ⟨p, inside⟩ := ih part held failed
      exact ⟨before.length :: p, .within entered parts done inside⟩

theorem length_le_of_evaluated {before after before' after' : List Expression}
    {part part' : Expression} {values : List Value} {fault : EvalError}
    (same : before ++ part :: after = before' ++ part' :: after')
    (done : e.evaluateItems params before' = .ok values)
    (failed : e.evaluate params part = .error fault) : before'.length ≤ before.length := by
  refine Nat.le_of_not_lt fun lt => ?_
  have held : part ∈ before' := by
    have found := congrArg (fun items => items[before.length]?) same
    simp only [List.getElem?_append_right (Nat.le_refl _), Nat.sub_self, List.getElem?_cons_zero,
      List.getElem?_append_left lt] at found
    exact List.mem_of_getElem? found.symm
  obtain ⟨v, evaluated⟩ := evaluate_of_mem done part held
  cases evaluated.symm.trans failed

theorem not_raises_of_within {x : Expression} {i : Nat} {p : Position} {fault other : EvalError}
    (below : e.FailsAt params x (i :: p) fault) : ¬ e.Raises params x other := by
  intro raised
  cases below with
  | within entered parts done below =>
    cases raised with
    | name refused =>
      obtain ⟨text, allowed⟩ := entered
      cases allowed.symm.trans refused
    | nameWithoutList _ | form _ | reference _ => simp [children] at parts
    | function _ all _ =>
      have failed := evaluateItems_eq_error.mpr
        ⟨_, _, _, _, parts, done, evaluate_of_failsAt below⟩
      cases all.symm.trans failed

theorem FailsAt.unique {x : Expression} {p q : Position} {fault other : EvalError}
    (first : e.FailsAt params x p fault) (second : e.FailsAt params x q other) : p = q := by
  -- Of two first failures among the same parts neither stands before the other.
  induction first generalizing q with
  | here raised =>
    cases q with
    | nil => rfl
    | cons i rest => exact (not_raises_of_within second raised).elim
  | within entered parts done below ih =>
    cases second with
    | here raised => exact (not_raises_of_within (.within entered parts done below) raised).elim
    | within _ parts' done' below' =>
      have same := parts.symm.trans parts'
      have lengths := Nat.le_antisymm
        (length_le_of_evaluated same.symm done (evaluate_of_failsAt below'))
        (length_le_of_evaluated same done' (evaluate_of_failsAt below))
      obtain ⟨rfl, tails⟩ := List.append_inj same lengths
      obtain ⟨rfl, -⟩ := List.cons.inj tails
      rw [ih below']

/-- What comes after a position: the nodes on later ways, and the arguments of a call at the position
whose name is refused. -/
inductive ComesAfter (e : Evaluator) (x : Expression) (p : Position) : Position → Prop where
  | later {q : Position} (order : Precedes p q) : ComesAfter e x p q
  | argument {name : CallName} {args : List Expression} {fault : EvalError} {i : Nat}
      {rest : Position} (call : x.at? p = some (.call name args))
      (refused : e.allowedName name = .error fault) : ComesAfter e x p (p ++ i :: rest)

theorem enters_replaceAt {x : Expression} (new : Expression) (i : Nat) (rest : Position) :
    e.Enters (Expression.replaceAt new x (i :: rest)) ↔ e.Enters x := by
  rw [Expression.replaceAt]
  cases x <;> exact Iff.rfl

theorem ComesAfter.of_cons {x part : Expression} {i : Nat} {p q : Position}
    (held : x.children[i]? = some part) (after : ComesAfter e x (i :: p) q) :
    ∃ j rest, q = j :: rest ∧ (i < j ∨ j = i ∧ ComesAfter e part p rest) := by
  cases after with
  | later order =>
    cases order with
    | fork earlier => exact ⟨_, _, rfl, .inl earlier⟩
    | within before => exact ⟨_, _, rfl, .inr ⟨rfl, .later before⟩⟩
  | argument call refused =>
    rw [at?, held] at call
    exact ⟨_, _, rfl, .inr ⟨rfl, .argument call refused⟩⟩

theorem FailsAt.replaceAt {x : Expression} {p q : Position} {fault : EvalError}
    (failed : e.FailsAt params x p fault) (after : e.ComesAfter x p q) (new : Expression) :
    e.FailsAt params (Expression.replaceAt new x q) p fault := by
  induction failed generalizing q with
  | here raised =>
    cases after with
    | later order => cases order
    | argument call refused =>
      obtain rfl := Option.some.inj call
      cases raised with
      | name refused => exact .here (.name refused)
      | function allowed _ _ => cases allowed.symm.trans refused
  | @within x part before later values p fault entered parts done below ih =>
    have held : x.children[before.length]? = some part := by simp [parts]
    -- What is replaced stands in a later part, which is not reached, or in the part that fails.
    obtain ⟨j, rest, rfl, later | ⟨rfl, inside⟩⟩ := after.of_cons held
    · obtain ⟨others, parts⟩ := children_replaceAt_later new rest parts later
      exact .within ((enters_replaceAt new _ rest).mpr entered) parts done below
    · exact .within ((enters_replaceAt new _ rest).mpr entered)
        (children_replaceAt_same new rest parts) done (ih inside)

theorem FailsAt.raises {x : Expression} {p : Position} {fault : EvalError}
    (failed : e.FailsAt params x p fault) :
    ∃ node, x.at? p = some node ∧ e.Raises params node fault := by
  induction failed with
  | @here x fault raised => exact ⟨x, rfl, raised⟩
  | @within x part before after values p fault _ parts _ _ ih =>
    obtain ⟨node, found, raised⟩ := ih
    refine ⟨node, ?_, raised⟩
    rw [at?, parts, List.getElem?_append_right (Nat.le_refl _), Nat.sub_self]
    exact found

theorem failure_ignores_what_comes_after (e : Evaluator) (params : Parameters) (x : Expression)
    (fault : EvalError) (failed : e.evaluate params x = .error fault) :
    ∃ p, e.FailsAt params x p fault ∧ (∀ q other, e.FailsAt params x q other → q = p) ∧
      (∃ node, x.at? p = some node ∧ e.Raises params node fault) ∧
      ∀ q, e.ComesAfter x p q → ∀ new,
        (x.at? q ≠ none → (replaceAt new x q).at? q = some new) ∧
        e.FailsAt params (replaceAt new x q) p fault ∧
        e.evaluate params (replaceAt new x q) = .error fault := by
  obtain ⟨p, stops⟩ := exists_failsAt failed
  refine ⟨p, stops, fun q other again => again.unique stops, stops.raises, fun q after new => ?_⟩
  have again := stops.replaceAt after new
  refine ⟨fun present => ?_, again, evaluate_of_failsAt again⟩
  obtain ⟨old, found⟩ := Option.ne_none_iff_exists'.mp present
  exact at?_replaceAt new found

theorem failure_ignores_what_comes_after_refused :
    let e : Evaluator := .new (.standard 0) Catalogue.empty.hostFunctions
    let missing : Expression := .reference "attr" (.key "gone")
    let joined (last : Expression) : Expression :=
      .sequence [.call (.named "concat") [missing, last]]
    let refused (arg : Expression) : Expression := .call (.named "exec") [arg]
    (e.evaluate .empty (joined (.scalar .null)) = .error (.referenceNotFound "attr" "gone") ∧
      ∀ new, e.evaluate .empty (joined new) = .error (.referenceNotFound "attr" "gone")) ∧
    e.evaluate .empty (refused missing) = .error (.illegalFunction "exec") ∧
      ∀ new, e.evaluate .empty (refused new) = .error (.illegalFunction "exec") := by
  intro e missing joined refused
  have first : e.evaluate .empty (joined (.scalar .null)) =
      .error (.referenceNotFound "attr" "gone") := rfl
  have second : e.evaluate .empty (refused missing) = .error (.illegalFunction "exec") := rfl
  have deep : e.FailsAt .empty (joined (.scalar .null)) [0, 0] (.referenceNotFound "attr" "gone") :=
    @FailsAt.within e .empty _ _ [] [] [] [0] _ trivial rfl rfl <|
      @FailsAt.within e .empty _ missing [] [.scalar .null] [] [] _ ⟨"concat", rfl⟩ rfl rfl
        (.here (.reference rfl))
  have top : e.FailsAt .empty (refused missing) [] (.illegalFunction "exec") := .here (.name rfl)
  refine ⟨⟨first, fun new => ?_⟩, second, fun new => ?_⟩
  · obtain ⟨p, -, unique, -, keeps⟩ := failure_ignores_what_comes_after e .empty _ _ first
    obtain rfl := unique _ _ deep
    exact (keeps [0, 1] (.later (.within (.fork Nat.zero_lt_one))) new).2.2
  · obtain ⟨p, -, unique, -, keeps⟩ := failure_ignores_what_comes_after e .empty _ _ second
    obtain rfl := unique _ _ top
    exact (keeps [0] (.argument rfl rfl) new).2.2

end ConfigExpr.Evaluator
