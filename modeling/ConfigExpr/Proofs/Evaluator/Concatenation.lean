import ConfigExpr.Proofs.Standard.Interchange
import ConfigExpr.Proofs.Value.Scalars

/-!
Concatenation of values. Its outcome depends on two things only, the bytes of the values in order
and whether one of them is raw bytes, and both are known of a list as soon as they are known of its
parts. So values may be concatenated in groups, and then the results of the groups, with the same
result or the same failure.
-/
namespace ConfigExpr.Builtin
open Standard Outcome

section Bytes
variable {v : Value} {args : List Value}

theorem joinBytes?_nil : joinBytes? [] = some [] := rfl

theorem joinBytes?_cons (v : Value) (rest : List Value) :
    joinBytes? (v :: rest) =
      v.bytes?.bind fun first => (joinBytes? rest).map fun others => first ++ others := by
  rw [joinBytes?, joinBytes?, List.mapM_cons]
  cases v.bytes? with
  | none => rfl
  | some first => cases rest.mapM Value.bytes? <;> rfl

theorem joinBytes?_append (front behind : List Value) :
    joinBytes? (front ++ behind) = (joinBytes? front).bind fun first =>
      (joinBytes? behind).map fun others => first ++ others := by
  induction front with
  | nil => cases joined : joinBytes? behind <;> simp [joinBytes?_nil, joined]
  | cons v front ih =>
    rw [List.cons_append, joinBytes?_cons, joinBytes?_cons, ih]
    cases v.bytes? with
    | none => rfl
    | some first =>
      cases joinBytes? front with
      | none => rfl
      | some middle => cases joinBytes? behind <;> simp

theorem joinBytes?_eq_none : joinBytes? args = none ↔ ∃ v ∈ args, v.isScalar = false := by
  induction args with
  | nil => simp [joinBytes?_nil]
  | cons v rest ih =>
    simp only [List.mem_cons, exists_eq_or_imp]
    rw [joinBytes?_cons, ← ih, ← Value.bytes?_eq_none]
    cases v.bytes? <;> simp

theorem joinBytes?_scalars (scalars : ∀ v ∈ args, v.isScalar = true) :
    joinBytes? args = some (args.map Value.heldBytes).flatten := by
  rw [joinBytes?, Value.mapM_bytes? scalars, Option.map_some]

end Bytes

section Outcomes
variable {args others : List Value} {v : Value} {fault : EvalError}

def joinFailure : EvalError :=
  .functionFailure "concat" notJoined

theorem concatenate_congr (bytes : joinBytes? args = joinBytes? others)
    (form : args.any isBytes = others.any isBytes) : concatenate args = concatenate others := by
  rw [concatenate, concatenate, bytes, form]

theorem concatenate_eq_error :
    concatenate args = .error fault ↔ fault = joinFailure ∧ joinBytes? args = none := by
  rw [concatenate]
  cases joinBytes? args with
  | none =>
    constructor
    · intro same
      exact ⟨(Except.error.inj same).symm, rfl⟩
    · rintro ⟨rfl, -⟩
      rfl
  | some joined => cases args.any isBytes <;> simp

theorem bytes?_of_concatenate (result : concatenate args = .ok v) : v.bytes? = joinBytes? args := by
  have raw := raw_concatenate args
  rw [result] at raw
  cases joined : joinBytes? args with
  | none => rw [joined] at raw; cases raw
  | some bytes =>
    rw [joined] at raw
    rw [← Value.bytes?_raw v, Except.ok.inj raw]
    rfl

theorem isBytes_of_concatenate (result : concatenate args = .ok v) :
    isBytes v = args.any isBytes := by
  rw [concatenate] at result
  cases joined : joinBytes? args with
  | none => rw [joined] at result; cases result
  | some bytes =>
    rw [joined] at result
    cases form : args.any isBytes <;> rw [form] at result <;> cases result <;> rfl

theorem exists_concatenation (scalars : ∀ v ∈ args, v.isScalar = true) :
    ∃ v, concatenate args = .ok v ∧ v.bytes? = some (args.map Value.heldBytes).flatten := by
  have join := joinBytes?_scalars scalars
  rcases eq_ok_or_eq_error (concatenate args) with ⟨v, result⟩ | ⟨fault, failed⟩
  · exact ⟨v, result, (bytes?_of_concatenate result).trans join⟩
  · rw [(concatenate_eq_error.mp failed).2] at join
    cases join

theorem text_of_concatenate (result : concatenate args = .ok v) (noBytes : isBytes v = false)
    {joined : List UInt8} (join : joinBytes? args = some joined) :
    ∃ text, v = .string text ∧ Utf8.decode? joined = some text := by
  rw [isBytes_of_concatenate result] at noBytes
  obtain ⟨text, rfl⟩ := exists_text_of_joined join noBytes
  rw [concatenate, join] at result
  simp only [noBytes, Bool.false_eq_true, if_false, Utf8.decodeLossy_encode] at result
  exact ⟨text, (Except.ok.inj result).symm, Utf8.decode?_encode text⟩

end Outcomes

section Groups
variable {groups : List (List Value)} {results : List Value} {fault : EvalError}

theorem joinBytes?_results (each : groups.mapM concatenate = .ok results) :
    joinBytes? results = joinBytes? groups.flatten ∧
      results.any isBytes = groups.flatten.any isBytes := by
  induction groups generalizing results with
  | nil =>
    obtain rfl := Except.ok.inj each
    exact ⟨rfl, rfl⟩
  | cons group groups ih =>
    rw [List.mapM_cons] at each
    obtain ⟨first, result, behind⟩ := bind_eq_ok.mp each
    obtain ⟨others, later, same⟩ := bind_eq_ok.mp behind
    obtain rfl := Except.ok.inj same
    obtain ⟨bytes, form⟩ := ih later
    constructor
    · rw [joinBytes?_cons, bytes?_of_concatenate result, bytes, List.flatten_cons,
        joinBytes?_append]
    · rw [List.any_cons, isBytes_of_concatenate result, form, List.flatten_cons, List.any_append]

theorem joinBytes?_failed (failed : groups.mapM concatenate = .error fault) :
    fault = joinFailure ∧ joinBytes? groups.flatten = none := by
  induction groups with
  | nil => cases failed
  | cons group groups ih =>
    rw [List.mapM_cons] at failed
    rw [List.flatten_cons, joinBytes?_append]
    rcases bind_eq_error.mp failed with first | ⟨v, result, behind⟩
    · obtain ⟨same, none⟩ := concatenate_eq_error.mp first
      exact ⟨same, by rw [none, Option.bind_none]⟩
    · rcases bind_eq_error.mp behind with later | ⟨others, -, impossible⟩
      · obtain ⟨same, none⟩ := ih later
        refine ⟨same, ?_⟩
        rw [none]
        cases joinBytes? group <;> rfl
      · cases impossible

theorem concatenate_groups (groups : List (List Value)) :
    (groups.mapM concatenate >>= concatenate) = concatenate groups.flatten := by
  rcases eq_ok_or_eq_error (groups.mapM concatenate) with ⟨results, each⟩ | ⟨fault, failed⟩
  · obtain ⟨bytes, form⟩ := joinBytes?_results each
    rw [each, ok_bind]
    exact concatenate_congr bytes form
  · rw [failed, concatenate_eq_error.mpr (joinBytes?_failed failed)]
    rfl

end Groups

/-- Concatenation fails exactly for containers. The result for scalars has their bytes in order: it
is raw bytes if one of them is, and else the text of which these are the bytes. Concatenating groups
of the values first makes no difference. -/
theorem concatenation_is_exact_and_associative (args : List Value) :
    (∀ fault, Builtin.concat.call args = .error fault ↔
      fault = .functionFailure "concat" (.failed "concat" "Array to string conversion") ∧
        ∃ v ∈ args, v.isScalar = false) ∧
    ((∀ v ∈ args, v.isScalar = true) → ∃ v parts, Builtin.concat.call args = .ok v ∧
      args.mapM Value.bytes? = some parts ∧ v.bytes? = some parts.flatten ∧
      (isBytes v = true ↔ ∃ arg ∈ args, isBytes arg = true) ∧
      (isBytes v = false →
        ∃ text, v = .string text ∧ Utf8.decode? parts.flatten = some text)) ∧
    ∀ groups : List (List Value), groups.flatten = args →
      (do
        let results ← groups.mapM Builtin.concat.call
        Builtin.concat.call results) = Builtin.concat.call args := by
  refine ⟨fun fault => ?_, fun scalars => ?_, ?_⟩
  · rw [← joinBytes?_eq_none]
    exact concatenate_eq_error
  · obtain ⟨v, result, bytes⟩ := exists_concatenation scalars
    refine ⟨v, _, result, Value.mapM_bytes? scalars, bytes, ?_,
      fun noBytes => text_of_concatenate result noBytes (joinBytes?_scalars scalars)⟩
    rw [isBytes_of_concatenate result, List.any_eq_true]
  · rintro groups rfl
    exact concatenate_groups groups

theorem concatenation_is_exact_and_associative_cut :
    let args : List Value := [.bytes [0xC3], .bytes [0xA9], .integer 5]
    let groups : List (List Value) := [[.bytes [0xC3]], [], [.bytes [0xA9], .integer 5]]
    (∀ v ∈ args, v.isScalar = true) ∧ groups.flatten = args ∧
      groups.mapM Builtin.concat.call =
        .ok [.bytes [0xC3], .string "", .bytes [0xA9, 53]] ∧
      Builtin.concat.call [.bytes [0xC3], .string "", .bytes [0xA9, 53]] =
        .ok (.bytes [0xC3, 0xA9, 53]) ∧
      Builtin.concat.call args = .ok (.bytes [0xC3, 0xA9, 53]) := by
  intro args groups
  have each : groups.mapM Builtin.concat.call =
      .ok [.bytes [0xC3], .string "", .bytes [0xA9, 53]] := by rfl
  have whole : Builtin.concat.call [.bytes [0xC3], .string "", .bytes [0xA9, 53]] =
      .ok (.bytes [0xC3, 0xA9, 53]) := by rfl
  obtain ⟨-, -, grouped⟩ := concatenation_is_exact_and_associative args
  have same := grouped groups rfl
  rw [each, ok_bind, whole] at same
  exact ⟨by simp [args, Value.isScalar], rfl, each, whole, same.symm⟩

end ConfigExpr.Builtin
