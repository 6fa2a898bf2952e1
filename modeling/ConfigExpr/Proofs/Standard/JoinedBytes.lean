import ConfigExpr.Proofs.Evaluator.Concatenation
import ConfigExpr.Standard.TextFunctions

/-!
The bytes of joined elements. Joining takes the texts of its elements and of the separator, where
concatenation takes their bytes. The two agree as long as all bytes involved are those of a text,
and never otherwise, because what stands for a malformed part is at least as long and not the same.
-/
namespace ConfigExpr.Standard
open Value Builtin Outcome

section Lists
variable {α β : Type}

theorem map_intersperse (f : α → β) (separator : α) (list : List α) :
    (list.intersperse separator).map f = (list.map f).intersperse (f separator) := by
  induction list with
  | nil => rfl
  | cons a list ih =>
    cases list with
    | nil => rfl
    | cons b list =>
      rw [List.intersperse_cons_cons, List.map_cons, List.map_cons, ih]
      rfl

theorem intercalate_map (f : α → List β) (separator : α) (list : List α) :
    (f separator).intercalate (list.map f) = (list.intersperse separator).flatMap f := by
  rw [List.flatMap_def, map_intersperse, List.intercalate]

theorem length_flatMap_le {f g : α → List β} {list : List α}
    (shorter : ∀ a ∈ list, (g a).length ≤ (f a).length) :
    (list.flatMap g).length ≤ (list.flatMap f).length := by
  induction list with
  | nil => exact Nat.le_refl _
  | cons a list ih =>
    obtain ⟨first, others⟩ := List.forall_mem_cons.mp shorter
    rw [List.flatMap_cons, List.flatMap_cons, List.length_append, List.length_append]
    exact Nat.add_le_add first (ih others)

theorem flatMap_eq_iff {f g : α → List β} {list : List α}
    (shorter : ∀ a ∈ list, (g a).length ≤ (f a).length) :
    list.flatMap f = list.flatMap g ↔ ∀ a ∈ list, f a = g a := by
  induction list with
  | nil => simp
  | cons a list ih =>
    obtain ⟨first, others⟩ := List.forall_mem_cons.mp shorter
    rw [List.flatMap_cons, List.flatMap_cons, List.forall_mem_cons, ← ih others]
    refine ⟨fun same => ?_, fun ⟨same, rest⟩ => by rw [same, rest]⟩
    have whole := congrArg List.length same
    have rest := length_flatMap_le others
    rw [List.length_append, List.length_append] at whole
    exact List.append_inj same (by omega)

theorem forall_mem_intersperse {p : α → Prop} {separator : α} {list : List α} (ends : p separator)
    (each : ∀ a ∈ list, p a) : ∀ a ∈ list.intersperse separator, p a := by
  induction list with
  | nil => exact each
  | cons a list ih =>
    cases list with
    | nil => exact each
    | cons b list =>
      obtain ⟨first, others⟩ := List.forall_mem_cons.mp each
      rw [List.intersperse_cons_cons]
      exact List.forall_mem_cons.mpr ⟨first, List.forall_mem_cons.mpr ⟨ends, ih others⟩⟩

theorem intercalate_empty (list : List (List β)) :
    ([] : List β).intercalate list = list.flatten := by
  induction list with
  | nil => rfl
  | cons piece list ih =>
    cases list with
    | nil => rw [List.intercalate_singleton, List.flatten_singleton]
    | cons next list =>
      rw [List.intercalate_cons_cons, ih, List.append_nil]
      rfl

theorem encode_intercalate (separator : String) (texts : List String) :
    Utf8.encode (String.intercalate separator texts) =
      (Utf8.encode separator).intercalate (texts.map Utf8.encode) := by
  induction texts with
  | nil => rfl
  | cons text texts ih =>
    cases texts with
    | nil => rw [String.intercalate_singleton, List.map_singleton, List.intercalate_singleton]
    | cons next texts =>
      rw [String.intercalate_cons_cons, Utf8.encode_append, Utf8.encode_append, ih]
      exact List.intercalate_cons_cons.symm

end Lists

section Join
variable {s : Value} {items : List Value}

theorem joinAll_scalars (separator : String) (scalars : ∀ v ∈ items, v.isScalar = true) :
    joinAll separator items =
      .ok (.string (String.intercalate separator (items.map shownText))) := by
  have each : items.mapM (joinedText "implode") = .ok (items.map shownText) := by
    induction items with
    | nil => rfl
    | cons v items ih =>
      obtain ⟨first, others⟩ := List.forall_mem_cons.mp scalars
      rw [List.mapM_cons, joinedText, text?_of_isScalar first, ih others]
      rfl
  rw [joinAll, each]
  rfl

theorem implode_call (scalars : ∀ v ∈ s :: items, v.isScalar = true) (context : Context) :
    implode.call [s, .array items] context =
      .ok (.string (String.intercalate (shownText s) (items.map shownText))) := by
  obtain ⟨first, others⟩ := List.forall_mem_cons.mp scalars
  have called : implode.call [s, .array items] context =
      textArgument "implode" [s, .array items] 0 "separator" >>= fun separator =>
        joinAll separator items := rfl
  have taken : textArgument "implode" [s, .array items] 0 "separator" = .ok (shownText s) := by
    have argument : argument [s, .array items] 0 = s := rfl
    rw [textArgument, argument, text?_of_isScalar first]
  rw [called, taken, ok_bind, joinAll_scalars _ others]

theorem implode_call_single (scalars : ∀ v ∈ items, v.isScalar = true) (context : Context) :
    implode.call [.array items] context =
      .ok (.string (String.intercalate "" (items.map shownText))) := by
  have called : implode.call [.array items] context = joinAll "" items := rfl
  rw [called, joinAll_scalars _ scalars]

theorem flatMap_encode_eq_iff (scalars : ∀ v ∈ items, v.isScalar = true) :
    items.flatMap (fun v => Utf8.encode (shownText v)) = items.flatMap heldBytes ↔
      ∀ v ∈ items, holdsText v = true := by
  rw [flatMap_eq_iff fun v member => length_heldBytes_le (scalars v member)]
  exact forall₂_congr fun v member => encode_shownText_eq_iff (scalars v member)

theorem encode_joined (separator : String) (items : List Value) :
    Utf8.encode (String.intercalate separator (items.map shownText)) =
      (Utf8.encode separator).intercalate (items.map fun v => Utf8.encode (shownText v)) := by
  rw [encode_intercalate, List.map_map]
  rfl

end Join

/-- Joining scalars gives their texts with the text of the separator in between. Its bytes are the
bytes of the scalars with those of the separator in between exactly if all that are joined are
texts, and without a separator they are the bytes of the concatenation exactly then. -/
theorem joined_bytes_are_exact_for_texts {s : Value} {items : List Value}
    (scalars : ∀ v ∈ s :: items, v.isScalar = true) (context : Context) :
    ∃ separator parts shown texts, s.bytes? = some separator ∧
      items.mapM Value.bytes? = some parts ∧ s.text? = some shown ∧
      items.mapM Value.text? = some texts ∧
      (implode.call [s, .array items] context =
          .ok (.string (String.intercalate shown texts)) ∧
        (Utf8.encode (String.intercalate shown texts) = separator.intercalate parts ↔
          ∀ v ∈ items.intersperse s, holdsText v = true)) ∧
      ∃ v, Builtin.concat.call items = .ok v ∧
        implode.call [.array items] context = .ok (.string (String.intercalate "" texts)) ∧
        (some (Utf8.encode (String.intercalate "" texts)) = v.bytes? ↔
          ∀ w ∈ items, holdsText w = true) := by
  obtain ⟨first, others⟩ := List.forall_mem_cons.mp scalars
  refine ⟨heldBytes s, items.map heldBytes, shownText s, items.map shownText,
    bytes?_of_isScalar first, mapM_bytes? others, text?_of_isScalar first, mapM_text? others,
    ⟨implode_call scalars context, ?_⟩, ?_⟩
  · rw [encode_joined, intercalate_map (fun v => Utf8.encode (shownText v)),
      intercalate_map heldBytes]
    exact flatMap_encode_eq_iff (forall_mem_intersperse first others)
  · obtain ⟨v, result, bytes⟩ := exists_concatenation others
    refine ⟨v, result, implode_call_single others context, ?_⟩
    have nothing : Utf8.encode "" = [] := rfl
    rw [bytes, Option.some_inj, encode_joined, nothing, intercalate_empty, ← List.flatMap_def,
      ← List.flatMap_def]
    exact flatMap_encode_eq_iff others

theorem joined_bytes_are_exact_for_texts_whole :
    let s : Value := .bytes [0xC3, 0xA9]
    let items : List Value := [.bytes [97], .integer 5]
    (∀ v ∈ s :: items, v.isScalar = true) ∧ (∀ v ∈ items.intersperse s, holdsText v = true) ∧
      implode.call [s, .array items] ⟨0, 0⟩ = .ok (.string "aé5") ∧
      Utf8.encode "aé5" = [0xC3, 0xA9].intercalate [[97], [53]] := by
  intro s items
  have scalars : ∀ v ∈ s :: items, v.isScalar = true := by simp [s, items, isScalar]
  have texts : ∀ v ∈ items.intersperse s, holdsText v = true := by decide
  have joined : implode.call [s, .array items] ⟨0, 0⟩ = .ok (.string "aé5") := by rfl
  obtain ⟨separator, parts, shown, texts', held, each, -, -, ⟨called, exact_iff⟩, -⟩ :=
    joined_bytes_are_exact_for_texts scalars ⟨0, 0⟩
  rw [joined] at called
  rw [← Value.string.inj (Except.ok.inj called)] at exact_iff
  obtain rfl := Option.some.inj held
  obtain rfl := Option.some.inj each
  exact ⟨scalars, texts, joined, exact_iff.mpr texts⟩

/-- A byte that begins no character is replaced by the three bytes of another character, with a
separator and without one, where concatenation keeps it. -/
theorem raw_byte_is_not_joined :
    implode.call [.string ",", .array [.bytes [0xFF], .string "a"]] ⟨0, 0⟩ =
        .ok (.string "\uFFFD,a") ∧
      Utf8.encode "\uFFFD,a" = [0xEF, 0xBF, 0xBD, 44, 97] ∧
      [Value.bytes [0xFF], .string "a"].mapM Value.bytes? = some [[0xFF], [97]] ∧
      [44].intercalate [[0xFF], [97]] = [0xFF, 44, (97 : UInt8)] ∧
      implode.call [.array [.bytes [0xFF], .string "a"]] ⟨0, 0⟩ = .ok (.string "\uFFFDa") ∧
      Builtin.concat.call [.bytes [0xFF], .string "a"] = .ok (.bytes [0xFF, 97]) := by
  refine ⟨by rfl, by decide, by rfl, by decide, by rfl, by rfl⟩

end ConfigExpr.Standard
