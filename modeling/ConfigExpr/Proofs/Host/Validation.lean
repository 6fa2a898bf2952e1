import ConfigExpr.Host.Function
import Mathlib.Data.Nat.Find
import Mathlib.Tactic.Common

/-!
What the check of arguments finds. A wrong count is told before anything else; then the first argument
that its parameter refuses is told, with its place, its parameter and both kinds. Arguments pass if the
count is right and no parameter refuses one.
-/
namespace ConfigExpr

namespace Signature
variable {s : Signature} {args : List Value} {index count : Nat} {p : Parameter} {v : Value}

/-- The parameter that describes the argument at an index: the one at its place or, behind the
parameters of a signature without a most count, the last one. -/
inductive Describes (s : Signature) (index : Nat) (p : Parameter) : Prop where
  | own (placed : s.parameters[index]? = some p)
  | trailing (variadic : s.most = none) (behind : s.parameters.length ≤ index)
      (last : s.parameters.getLast? = some p)

theorem parameter?_eq_some_iff : s.parameter? index = some p ↔ s.Describes index p := by
  rw [parameter?]
  cases placed : s.parameters[index]? with
  | some q =>
    constructor
    · rintro ⟨⟩
      exact .own placed
    · intro describes
      cases describes with
      | own held => exact placed.symm.trans held
      | trailing _ behind _ =>
        rw [List.getElem?_eq_none_iff.mpr behind] at placed
        cases placed
  | none =>
    have behind := List.getElem?_eq_none_iff.mp placed
    cases variadic : s.most with
    | none =>
      refine ⟨fun last => .trailing variadic behind last, fun describes => ?_⟩
      cases describes with
      | own held => cases placed.symm.trans held
      | trailing _ _ last => exact last
    | some most =>
      refine iff_of_false (fun none => nomatch none) fun describes => ?_
      cases describes with
      | own held => cases placed.symm.trans held
      | trailing unbounded _ _ => cases variadic.symm.trans unbounded

/-- The count of arguments is below the least or above the most. -/
def Miscounts (s : Signature) (count : Nat) : Prop :=
  count < s.least ∨ ∃ most, s.most = some most ∧ most < count

theorem acceptsCount_iff : s.acceptsCount count = true ↔ ¬ s.Miscounts count := by
  rw [acceptsCount, Miscounts]
  cases s.most with
  | none => simp
  | some most => simp

structure Refuses (s : Signature) (args : List Value) (index : Nat) (p : Parameter) (v : Value) :
    Prop where
  held : args[index]? = some v
  described : s.Describes index p
  refused : p.kind.accepts v = false

structure RefusesFirst (s : Signature) (args : List Value) (index : Nat) (p : Parameter)
    (v : Value) : Prop extends s.Refuses args index p v where
  least : ∀ earlier q w, s.Refuses args earlier q w → index ≤ earlier

inductive Rejects (s : Signature) (args : List Value) : CallFailure → Prop where
  | count (miscounts : s.Miscounts args.length) :
    Rejects s args (.arity s.name s.least s.most args.length)
  | kind {index : Nat} {p : Parameter} {v : Value} (counted : ¬ s.Miscounts args.length)
      (first : s.RefusesFirst args index p v) :
    Rejects s args (.argumentType s.name index p.name p.kind.name v.kind.name)

theorem rejects_arity_iff {name : String} {least actual : Nat} {most : Option Nat} :
    s.Rejects args (.arity name least most actual) ↔
      s.Miscounts args.length ∧ name = s.name ∧ least = s.least ∧ most = s.most ∧
        actual = args.length := by
  constructor
  · rintro ⟨miscounts⟩
    exact ⟨miscounts, rfl, rfl, rfl, rfl⟩
  · rintro ⟨miscounts, rfl, rfl, rfl, rfl⟩
    exact .count miscounts

theorem rejects_argumentType_iff {name param expected actual : String} :
    s.Rejects args (.argumentType name index param expected actual) ↔
      ¬ s.Miscounts args.length ∧ ∃ p v, s.RefusesFirst args index p v ∧ name = s.name ∧
        param = p.name ∧ expected = p.kind.name ∧ actual = v.kind.name := by
  constructor
  · rintro (_ | ⟨counted, first⟩)
    exact ⟨counted, _, _, first, rfl, rfl, rfl, rfl⟩
  · rintro ⟨counted, p, v, first, rfl, rfl, rfl, rfl⟩
    exact .kind counted first

theorem exists_refusesFirst (refuses : s.Refuses args index p v) :
    ∃ index p v, s.RefusesFirst args index p v := by
  classical
  have some : ∃ index, ∃ p v, s.Refuses args index p v := ⟨index, p, v, refuses⟩
  obtain ⟨p, v, first⟩ := Nat.find_spec some
  exact ⟨Nat.find some, p, v, first, fun _ q w other => Nat.find_min' some ⟨q, w, other⟩⟩

end Signature

namespace HostFunction
variable {s : Signature} {args : List Value} {index : Nat} {p : Parameter} {v : Value}

theorem checkKinds_step (accepted : ∀ p v, ¬ s.Refuses args index p v) :
    checkKinds s index (args.drop index) = checkKinds s (index + 1) (args.drop (index + 1)) := by
  by_cases inside : index < args.length
  · rw [List.drop_eq_getElem_cons inside, checkKinds]
    cases described : s.parameter? index with
    | none => rfl
    | some p =>
      have held : args[index]? = some args[index] := List.getElem?_eq_getElem inside
      have taken : p.kind.accepts args[index] = true := by
        by_contra refused
        exact accepted p _ ⟨held, Signature.parameter?_eq_some_iff.mp described,
          eq_false_of_ne_true refused⟩
      exact if_pos taken
  · rw [List.drop_of_length_le (by omega), List.drop_of_length_le (by omega), checkKinds, checkKinds]

theorem checkKinds_drop (accepted : ∀ earlier < index, ∀ p v, ¬ s.Refuses args earlier p v) :
    checkKinds s 0 args = checkKinds s index (args.drop index) := by
  induction index with
  | zero => rw [List.drop_zero]
  | succ index ih =>
    rw [ih fun earlier before => accepted earlier (by omega),
      checkKinds_step (accepted index (Nat.lt_succ_self index))]

theorem checkKinds_of_accepted (accepted : ∀ index p v, ¬ s.Refuses args index p v) :
    checkKinds s 0 args = .ok () := by
  have whole : checkKinds s 0 args = checkKinds s args.length (args.drop args.length) :=
    checkKinds_drop fun earlier _ => accepted earlier
  rw [whole, List.drop_length, checkKinds]

theorem checkKinds_of_refusesFirst (first : s.RefusesFirst args index p v) :
    checkKinds s 0 args =
      .error (.argumentType s.name index p.name p.kind.name v.kind.name) := by
  have accepted : ∀ earlier < index, ∀ q w, ¬ s.Refuses args earlier q w :=
    fun earlier before q w other => Nat.not_lt.mpr (first.least earlier q w other) before
  obtain ⟨inside, rfl⟩ := List.getElem?_eq_some_iff.mp first.held
  rw [checkKinds_drop accepted, List.drop_eq_getElem_cons inside, checkKinds,
    Signature.parameter?_eq_some_iff.mpr first.described]
  simp only [first.refused, Bool.false_eq_true, if_false]

theorem validate_of_miscounts (miscounts : s.Miscounts args.length) :
    validate s args = .error (.arity s.name s.least s.most args.length) := by
  rw [validate, if_neg (mt Signature.acceptsCount_iff.mp (not_not.mpr miscounts))]

theorem validate_of_counted (counted : ¬ s.Miscounts args.length) :
    validate s args = checkKinds s 0 args := by
  rw [validate, if_pos (Signature.acceptsCount_iff.mpr counted)]

theorem validate_eq_ok_iff :
    validate s args = .ok () ↔
      ¬ s.Miscounts args.length ∧ ∀ index p v, ¬ s.Refuses args index p v := by
  constructor
  · intro passed
    have counted : ¬ s.Miscounts args.length := fun miscounts =>
      nomatch passed.symm.trans (validate_of_miscounts miscounts)
    refine ⟨counted, fun index p v refuses => ?_⟩
    obtain ⟨_, _, _, first⟩ := Signature.exists_refusesFirst refuses
    rw [validate_of_counted counted, checkKinds_of_refusesFirst first] at passed
    cases passed
  · rintro ⟨counted, accepted⟩
    rw [validate_of_counted counted, checkKinds_of_accepted accepted]

theorem validate_eq_error_iff {failure : CallFailure} :
    validate s args = .error failure ↔ s.Rejects args failure := by
  constructor
  · intro failed
    by_cases miscounts : s.Miscounts args.length
    · obtain rfl := Except.error.inj ((validate_of_miscounts miscounts).symm.trans failed)
      exact .count miscounts
    · by_cases refused : ∃ index p v, s.Refuses args index p v
      · obtain ⟨_, _, _, refuses⟩ := refused
        obtain ⟨index, p, v, first⟩ := Signature.exists_refusesFirst refuses
        rw [validate_of_counted miscounts, checkKinds_of_refusesFirst first] at failed
        obtain rfl := Except.error.inj failed
        exact .kind miscounts first
      · have passed : validate s args = .ok () := validate_eq_ok_iff.mpr
          ⟨miscounts, fun index p v refuses => refused ⟨index, p, v, refuses⟩⟩
        cases failed.symm.trans passed
  · intro rejected
    cases rejected with
    | count miscounts => exact validate_of_miscounts miscounts
    | kind counted first =>
      rw [validate_of_counted counted, checkKinds_of_refusesFirst first]

theorem call_eq_error_iff {f : HostFunction} {context : Context} {failure : CallFailure} :
    f.call args context = .error failure ↔
      f.signature.Rejects args failure ∨
        validate f.signature args = .ok () ∧ f.body args context = .error failure := by
  rw [← validate_eq_error_iff, call]
  cases validate f.signature args with
  | error other => simp
  | ok _ => simp

end HostFunction

end ConfigExpr
