import ConfigExpr.Evaluator.Builtin
import ConfigExpr.Proofs.Value.FloatTexts
import ConfigExpr.Proofs.Value.Scalars

/-!
Empty values and their texts. A scalar is empty if its text is empty or the digit zero, whatever the
scalar is made of; only the negative zero is empty and shows its sign. So a fallback takes the place
of a scalar if it takes the place of the text or the raw bytes that the scalar is joined to.
-/
namespace ConfigExpr.Value

section Forms
variable {x : Binary64} {n : Int64} {s : String} {b : List UInt8}

theorem isEmpty_string : (string s).isEmpty = true ↔ s = "" ∨ s = "0" := by
  rw [isEmpty, Bool.or_eq_true, beq_iff_eq, beq_iff_eq]

theorem integerText_eq_iff {n : Int} :
    Json.integerText n = "" ∨ Json.integerText n = "0" ↔ n = 0 := by
  rw [Json.integerText, ← String.toList_inj, ← String.toList_inj, String.toList_ofList,
    Numeral.ofInt]
  by_cases negative : n < 0
  · rw [if_pos negative]
    constructor
    · rintro (same | same)
      · cases same
      · cases same
    · intro zero
      omega
  · rw [if_neg negative]
    have filled : Numeral.ofNat n.natAbs ≠ "".toList := Numeral.ofNat_ne_nil _
    have zero : Numeral.ofNat n.natAbs = "0".toList ↔ n.natAbs = 0 :=
      ⟨fun same => Numeral.ofNat_injective same, fun same => by rw [same]; rfl⟩
    rw [zero, or_iff_right filled]
    omega

theorem isEmpty_integer : (integer n).isEmpty = true ↔
    Json.integerText n.toInt = "" ∨ Json.integerText n.toInt = "0" := by
  rw [integerText_eq_iff, isEmpty, beq_iff_eq, ← Int64.toInt_inj]
  rfl

theorem isEmpty_float (notNegativeZero : x ≠ .zero true) :
    (float x).isEmpty = true ↔ x.text = "" ∨ x.text = "0" := by
  rw [isEmpty]
  cases zero : x.isZero with
  | false =>
    obtain ⟨notEmpty, notZero⟩ := Binary64.text_of_nonzero zero
    simp only [Bool.false_eq_true, notEmpty, notZero, or_self]
  | true =>
    obtain ⟨negative, rfl⟩ := Binary64.eq_zero_of_isZero zero
    cases negative with
    | false => exact ⟨fun _ => .inr (by decide +kernel), fun _ => rfl⟩
    | true => exact absurd rfl notNegativeZero

theorem isEmpty_bytes :
    (bytes b).isEmpty = true ↔ Utf8.decodeLossy b = "" ∨ Utf8.decodeLossy b = "0" := by
  rw [isEmpty, Bool.or_eq_true, beq_iff_eq, beq_iff_eq]
  constructor
  · rintro (rfl | rfl)
    · exact .inl rfl
    · exact .inr (by decide)
  · rintro (shown | shown)
    · exact .inl (Utf8.encode_of_decodeLossy shown (by decide)).symm
    · exact .inr (Utf8.encode_of_decodeLossy shown (by decide)).symm

end Forms

theorem isEmpty_iff_shownText {v : Value} (scalar : v.isScalar = true)
    (notNegativeZero : v ≠ .float (.zero true)) :
    v.isEmpty = true ↔ v.shownText = "" ∨ v.shownText = "0" := by
  cases v with
  | array items | object fields => cases scalar
  | null => exact ⟨fun _ => .inl rfl, fun _ => rfl⟩
  | bool b =>
    cases b with
    | false => exact ⟨fun _ => .inl rfl, fun _ => rfl⟩
    | true => exact ⟨nofun, by decide⟩
  | integer n => exact isEmpty_integer
  | float x => exact isEmpty_float fun same => notNegativeZero (congrArg float same)
  | string s => exact isEmpty_string
  | bytes b => exact isEmpty_bytes

end ConfigExpr.Value

namespace ConfigExpr.Builtin
open Value
variable {v : Value}

/-- Raw bytes for raw bytes, and for any other scalar its text. -/
def joinedAlone (v : Value) : Value :=
  if isBytes v then .bytes v.heldBytes else .string v.shownText

theorem concatenate_singleton (scalar : v.isScalar = true) :
    concatenate [v] = .ok (joinedAlone v) := by
  have join : joinBytes? [v] = some v.heldBytes := by
    rw [joinBytes?, mapM_bytes? (List.forall_mem_singleton.mpr scalar)]
    exact congrArg some (List.append_nil _)
  rw [concatenate, join, List.any_cons, List.any_nil, Bool.or_false]
  cases v with
  | array items | object fields => cases scalar
  | bytes b => rfl
  | null | bool b | integer n | float x | string s =>
    exact congrArg (fun text => Except.ok (string text)) (Utf8.decodeLossy_encode _)

theorem isEmpty_joinedAlone (scalar : v.isScalar = true) :
    (joinedAlone v).isEmpty = true ↔ v.shownText = "" ∨ v.shownText = "0" := by
  cases v with
  | array items | object fields => cases scalar
  | bytes b => exact isEmpty_bytes
  | null | bool b | integer n | float x | string s => exact isEmpty_string

/-- A scalar other than the negative zero is empty exactly if its text is empty or the digit zero.
So it gives way to a fallback if what it is joined to does, and stays if that stays. -/
theorem fallbacks_follow_the_text (scalar : v.isScalar = true)
    (notNegativeZero : v ≠ .float (.zero true)) :
    (v.isEmpty = true ↔ v.text? = some "" ∨ v.text? = some "0") ∧
      ∃ joined, Builtin.concat.call [v] = .ok joined ∧ ∀ other,
        Builtin.ifEmpty.call [v, other] = .ok (if v.isEmpty then other else v) ∧
        Builtin.ifEmpty.call [joined, other] = .ok (if v.isEmpty then other else joined) := by
  have texts := isEmpty_iff_shownText scalar notNegativeZero
  have same : (joinedAlone v).isEmpty = v.isEmpty :=
    Bool.eq_iff_iff.mpr ((isEmpty_joinedAlone scalar).trans texts.symm)
  refine ⟨?_, joinedAlone v, concatenate_singleton scalar, fun other => ⟨rfl, ?_⟩⟩
  · rw [text?_of_isScalar scalar, Option.some.injEq, Option.some.injEq]
    exact texts
  · rw [← same]
    rfl

theorem fallbacks_follow_the_text_smallest :
    let v : Value := .float ⟨1⟩
    v.isScalar = true ∧ v ≠ .float (.zero true) ∧ v.isEmpty = false ∧
      ¬ (v.text? = some "" ∨ v.text? = some "0") ∧
      ∃ joined, Builtin.concat.call [v] = .ok joined ∧ Builtin.ifEmpty.call [v, .null] = .ok v ∧
        Builtin.ifEmpty.call [joined, .null] = .ok joined := by
  intro v
  have positive : v ≠ .float (.zero true) := fun same =>
    absurd (Value.float.inj same) (by decide)
  have filled : v.isEmpty = false := rfl
  obtain ⟨texts, joined, join, fallback⟩ := fallbacks_follow_the_text (v := v) rfl positive
  obtain ⟨own, other⟩ := fallback .null
  rw [filled] at texts own other
  exact ⟨rfl, positive, filled, fun shown => Bool.false_ne_true (texts.mpr shown), joined, join,
    own, other⟩

example : (Value.float (.zero true)).isEmpty = true ∧
    (Value.float (.zero true)).text? = some "-0" := by
  decide +kernel

end ConfigExpr.Builtin
