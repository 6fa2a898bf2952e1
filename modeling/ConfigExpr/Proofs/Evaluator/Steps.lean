import ConfigExpr.Evaluator.Eval
import ConfigExpr.Proofs.Expression.Node
import ConfigExpr.Proofs.Outcome

/-!
What one node does in an evaluation. Fields are evaluated like items and keep their names, every
node reads its parts through `evaluateItems`, and each error comes from one node, which raises it
by its name, its key, its form or the function that it calls.
-/
namespace ConfigExpr

namespace Evaluator
open Outcome

variable (e : Evaluator) (params : Parameters)

theorem evaluateItems_cons (item : Expression) (rest : List Expression) :
    e.evaluateItems params (item :: rest) =
      (e.evaluate params item >>= fun v => (v :: ·) <$> e.evaluateItems params rest) := by
  simp only [evaluateItems, bind_pure_comp]

theorem evaluateFields_eq_zip (fields : List (String × Expression)) :
    e.evaluateFields params fields =
      (fields.map Prod.fst).zip <$> e.evaluateItems params (fields.map Prod.snd) := by
  induction fields with
  | nil => rfl
  | cons field rest ih =>
    obtain ⟨name, item⟩ := field
    simp only [evaluateFields, List.map_cons, evaluateItems_cons, ih, map_bind,
      bind_pure_comp, Functor.map_map]
    rfl

theorem evaluate_sequence (items : List Expression) :
    e.evaluate params (.sequence items) = Value.array <$> e.evaluateItems params items := by
  simp only [evaluate, bind_pure_comp]

theorem evaluate_object (fields : List (String × Expression)) :
    e.evaluate params (.object fields) =
      (fun values => Value.object ((fields.map Prod.fst).zip values)) <$>
        e.evaluateItems params (fields.map Prod.snd) := by
  simp only [evaluate, evaluateFields_eq_zip, bind_pure_comp, Functor.map_map]

theorem evaluate_reference (space : String) (key : ReferenceKey) :
    e.evaluate params (.reference space key) = resolve params space key := rfl

theorem evaluate_call (name : CallName) (args : List Expression) :
    e.evaluate params (.call name args) =
      (e.allowedName name >>= fun text => e.evaluateItems params args >>= e.apply text) := rfl

theorem evaluate_callWithoutList (name : CallName) :
    e.evaluate params (.callWithoutList name) =
      (e.allowedName name >>= fun text => .error (.invalidArguments text)) := rfl

variable {e params}

theorem evaluate_of_mem {items : List Expression} {values : List Value}
    (done : e.evaluateItems params items = .ok values) :
    ∀ item ∈ items, ∃ v, e.evaluate params item = .ok v := by
  induction items generalizing values with
  | nil => simp
  | cons item rest ih =>
    rw [evaluateItems_cons, bind_eq_ok] at done
    obtain ⟨v, first, done⟩ := done
    obtain ⟨others, tail, -⟩ := map_eq_ok.mp done
    exact List.forall_mem_cons.mpr ⟨⟨v, first⟩, ih tail⟩

theorem evaluateItems_eq_error {items : List Expression} {fault : EvalError} :
    e.evaluateItems params items = .error fault ↔ ∃ before part after values,
      items = before ++ part :: after ∧ e.evaluateItems params before = .ok values ∧
        e.evaluate params part = .error fault := by
  constructor
  · intro failed
    induction items with
    | nil => cases failed
    | cons item rest ih =>
      rw [evaluateItems_cons, bind_eq_error] at failed
      rcases failed with first | ⟨v, done, later⟩
      · exact ⟨[], item, rest, [], rfl, rfl, first⟩
      · obtain ⟨before, part, after, values, rfl, all, raised⟩ := ih (map_eq_error.mp later)
        refine ⟨item :: before, part, after, v :: values, rfl, ?_, raised⟩
        rw [evaluateItems_cons, done, all]
        rfl
  · rintro ⟨before, part, after, values, rfl, all, failed⟩
    induction before generalizing values with
    | nil =>
      rw [List.nil_append, evaluateItems_cons, failed]
      rfl
    | cons item rest ih =>
      rw [evaluateItems_cons, bind_eq_ok] at all
      obtain ⟨v, done, all⟩ := all
      obtain ⟨others, tail, -⟩ := map_eq_ok.mp all
      rw [List.cons_append, evaluateItems_cons, done, ih others tail]
      rfl

theorem allowedName_eq_ok {name : CallName} {text : String} :
    e.allowedName name = .ok text ↔ name = .named text ∧ text ∈ e.allowed := by
  cases name with
  | named written =>
    by_cases held : written ∈ e.allowed
    · simp only [allowedName, Allowlist.allows, List.contains_eq_mem, held, decide_true, if_true,
        Except.ok.injEq, CallName.named.injEq]
      exact ⟨fun same => ⟨same, same ▸ held⟩, fun same => same.1⟩
    · simp only [allowedName, Allowlist.allows, List.contains_eq_mem, held, decide_false,
        Bool.false_eq_true, if_false, CallName.named.injEq, reduceCtorEq, false_iff]
      rintro ⟨rfl, listed⟩
      exact held listed
  | invalid json => simp [allowedName]

theorem allowedName_eq_error {name : CallName} {fault : EvalError}
    (refused : e.allowedName name = .error fault) : ∃ shown, fault = .illegalFunction shown := by
  cases name with
  | named text =>
    simp only [allowedName] at refused
    split at refused
    · cases refused
    · exact ⟨text, (Except.error.inj refused).symm⟩
  | invalid json => exact ⟨json, (Except.error.inj refused).symm⟩

theorem resolve_eq_ok {space : String} {key : ReferenceKey} {v : Value} :
    resolve params space key = .ok v ↔ ∃ text, key = .key text ∧ params.get? space text = some v := by
  cases key with
  | key text => cases found : params.get? space text <;> simp [resolve, found]
  | invalid json => simp [resolve]

theorem resolve_eq_error {space : String} {key : ReferenceKey} {fault : EvalError}
    (missed : resolve params space key = .error fault) :
    ∃ shown, fault = .invalidReference space shown ∨ fault = .referenceNotFound space shown := by
  cases key with
  | key text =>
    simp only [resolve] at missed
    split at missed
    · cases missed
    · exact ⟨text, .inr (Except.error.inj missed).symm⟩
  | invalid json => exact ⟨json, .inl (Except.error.inj missed).symm⟩

theorem builtin_call_eq_error {f : Builtin} {args : List Value} {fault : EvalError}
    (failed : f.call args = .error fault) :
    fault = .badArgumentCount f.name ∨ fault = .functionFailure f.name Builtin.notJoined := by
  cases f with
  | concat =>
    rw [Builtin.call, Builtin.concatenate] at failed
    split at failed
    next => exact .inr (Except.error.inj failed).symm
    next => split at failed <;> cases failed
  | ifEmpty =>
    rw [Builtin.call, Builtin.fallback.eq_def] at failed
    split at failed
    next => cases failed
    next => exact .inl (Except.error.inj failed).symm

/-- A function fails under the name that it is called by. -/
theorem apply_eq_error {name : String} {args : List Value} {fault : EvalError}
    (failed : e.apply name args = .error fault) :
    fault = .badArgumentCount name ∨ ∃ failure, fault = .functionFailure name failure := by
  rw [apply] at failed
  split at failed
  next f known =>
    rw [Builtin.ofName?] at known
    obtain rfl : f.name = name := by simpa using List.find?_some known
    exact (builtin_call_eq_error failed).imp_right fun same => ⟨_, same⟩
  next =>
    split at failed
    next => cases failed
    next failure _ => exact .inr ⟨failure, (Except.error.inj failed).symm⟩

/-- The errors that a node raises itself, whatever its parts would raise. -/
inductive Raises (e : Evaluator) (params : Parameters) : Expression → EvalError → Prop where
  | name {name : CallName} {args : List Expression} {fault : EvalError}
      (refused : e.allowedName name = .error fault) : Raises e params (.call name args) fault
  | nameWithoutList {name : CallName} {fault : EvalError}
      (refused : e.allowedName name = .error fault) : Raises e params (.callWithoutList name) fault
  | form {name : CallName} {text : String} (allowed : e.allowedName name = .ok text) :
      Raises e params (.callWithoutList name) (.invalidArguments text)
  | reference {space : String} {key : ReferenceKey} {fault : EvalError}
      (missed : resolve params space key = .error fault) :
      Raises e params (.reference space key) fault
  | function {name : CallName} {text : String} {args : List Expression} {values : List Value}
      {fault : EvalError} (allowed : e.allowedName name = .ok text)
      (done : e.evaluateItems params args = .ok values) (failed : e.apply text values = .error fault) :
      Raises e params (.call name args) fault

/-- A node goes on to its parts unless its name is refused. -/
def Enters (e : Evaluator) : Expression → Prop
  | .call name _ => ∃ text, e.allowedName name = .ok text
  | .scalar _ | .sequence _ | .object _ | .reference _ _ | .callWithoutList _ => True

theorem evaluate_of_raises {x : Expression} {fault : EvalError}
    (raised : e.Raises params x fault) : e.evaluate params x = .error fault := by
  cases raised with
  | name refused => rw [evaluate_call, refused]; rfl
  | nameWithoutList refused => rw [evaluate_callWithoutList, refused]; rfl
  | form allowed => rw [evaluate_callWithoutList, allowed]; rfl
  | reference missed => exact missed
  | function allowed done failed =>
    rw [evaluate_call]
    exact bind_eq_error.mpr (.inr ⟨_, allowed, bind_eq_error.mpr (.inr ⟨_, done, failed⟩)⟩)

theorem evaluate_of_children {x : Expression} {fault : EvalError} (entered : e.Enters x)
    (below : e.evaluateItems params x.children = .error fault) :
    e.evaluate params x = .error fault := by
  cases x with
  | scalar _ | reference _ _ | callWithoutList _ => cases below
  | sequence items =>
    rw [evaluate_sequence]
    exact map_eq_error.mpr below
  | object fields =>
    rw [evaluate_object]
    exact map_eq_error.mpr below
  | call name args =>
    obtain ⟨text, allowed⟩ := entered
    rw [evaluate_call]
    exact bind_eq_error.mpr (.inr ⟨text, allowed, bind_eq_error.mpr (.inl below)⟩)

theorem evaluate_eq_error {x : Expression} {fault : EvalError} :
    e.evaluate params x = .error fault ↔
      e.Raises params x fault ∨ e.Enters x ∧ e.evaluateItems params x.children = .error fault := by
  refine ⟨fun failed => ?_, fun either => either.elim evaluate_of_raises fun both =>
    evaluate_of_children both.1 both.2⟩
  cases x with
  | scalar v => cases failed
  | sequence items =>
    rw [evaluate_sequence, map_eq_error] at failed
    exact .inr ⟨trivial, failed⟩
  | object fields =>
    rw [evaluate_object, map_eq_error] at failed
    exact .inr ⟨trivial, failed⟩
  | reference space key => exact .inl (.reference failed)
  | call name args =>
    rw [evaluate_call, bind_eq_error] at failed
    rcases failed with refused | ⟨text, allowed, failed⟩
    · exact .inl (.name refused)
    · rcases bind_eq_error.mp failed with below | ⟨values, done, failed⟩
      · exact .inr ⟨⟨text, allowed⟩, below⟩
      · exact .inl (.function allowed done failed)
  | callWithoutList name =>
    rw [evaluate_callWithoutList, bind_eq_error] at failed
    rcases failed with refused | ⟨text, allowed, failed⟩
    · exact .inl (.nameWithoutList refused)
    · exact .inl (Except.error.inj failed ▸ .form allowed)

theorem raises_of_evaluate_eq_error {x : Expression} {fault : EvalError}
    (failed : e.evaluate params x = .error fault) :
    ∃ node, node.Occurs x ∧ e.Raises params node fault := by
  induction x using Expression.children_induction with
  | step x ih =>
    rcases evaluate_eq_error.mp failed with raised | ⟨-, below⟩
    · exact ⟨x, .here, raised⟩
    · obtain ⟨before, part, after, -, parts, -, failed⟩ := evaluateItems_eq_error.mp below
      have held : part ∈ x.children := parts ▸ List.mem_append_right before List.mem_cons_self
      obtain ⟨node, inside, raised⟩ := ih part held failed
      exact ⟨node, .within held inside, raised⟩

end Evaluator

end ConfigExpr
