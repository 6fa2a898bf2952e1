import ConfigExpr.Proofs.Number.Arithmetic
import ConfigExpr.Proofs.Value.Documents

/-!
Values and their documents. A value is found again in its document unless it holds bytes, which
become text, or a float that is not finite, which becomes null. What is read back shows the same
document in any case, since the integers in the document of a value are those of 64 bits.
-/
namespace ConfigExpr.Value

inductive Occurs (part : Value) : Value → Prop where
  | here : Occurs part part
  | field {fields : List (String × Value)} {field : String × Value} (held : field ∈ fields)
      (inside : Occurs part field.2) : Occurs part (.object fields)
  | item {items : List Value} {item : Value} (held : item ∈ items) (inside : Occurs part item) :
      Occurs part (.array items)

structure IsLossless (v : Value) : Prop where
  noBytes : ∀ b, ¬ (Value.bytes b).Occurs v
  finite : ∀ x, (Value.float x).Occurs v → x.isFinite = true

theorem isLossless_array {items : List Value} :
    IsLossless (.array items) ↔ ∀ item ∈ items, IsLossless item := by
  constructor
  · intro whole item held
    exact ⟨fun b inside => whole.noBytes b (.item held inside),
      fun x inside => whole.finite x (.item held inside)⟩
  · refine fun parts => ⟨fun b inside => ?_, fun x inside => ?_⟩
    · cases inside with
      | item held inside => exact (parts _ held).noBytes b inside
    · cases inside with
      | item held inside => exact (parts _ held).finite x inside

theorem isLossless_object {fields : List (String × Value)} :
    IsLossless (.object fields) ↔ ∀ field ∈ fields, IsLossless field.2 := by
  constructor
  · intro whole field held
    exact ⟨fun b inside => whole.noBytes b (.field held inside),
      fun x inside => whole.finite x (.field held inside)⟩
  · refine fun parts => ⟨fun b inside => ?_, fun x inside => ?_⟩
    · cases inside with
      | field held inside => exact (parts _ held).noBytes b inside
    · cases inside with
      | field held inside => exact (parts _ held).finite x inside

theorem isLossless_float {x : Binary64} : IsLossless (.float x) ↔ x.isFinite = true := by
  refine ⟨fun whole => whole.finite x .here, fun finite => ⟨fun _ inside => (nomatch inside), ?_⟩⟩
  intro y inside
  cases inside with
  | here => exact finite

theorem isLossless_integer (n : Int64) : IsLossless (.integer n) :=
  ⟨fun _ inside => (nomatch inside), fun _ inside => (nomatch inside)⟩

theorem not_isLossless_bytes (b : List UInt8) : ¬ IsLossless (.bytes b) :=
  fun whole => whole.noBytes b .here

theorem ofJson_ofFloat_eq_iff {x : Binary64} :
    ofJson (.ofFloat x) = .float x ↔ x.isFinite = true := by
  rw [Json.ofFloat]
  split
  · next finite => exact iff_of_true rfl finite
  · next infinite =>
    refine iff_of_false (fun same => ?_) infinite
    cases same

theorem ofNumber_toInt (n : Int64) : ofNumber (.integer n.toInt) = .integer n := by
  rw [ofNumber_of_fits n.le_toInt n.toInt_lt, Int64.ofInt_toInt]

mutual

theorem ofJson_toJson_eq_iff : ∀ v : Value, ofJson v.toJson = v ↔ v.IsLossless
  | .null | .bool _ | .string _ =>
    iff_of_true rfl ⟨fun _ inside => (nomatch inside), fun _ inside => (nomatch inside)⟩
  | .integer n => iff_of_true (ofNumber_toInt n) (isLossless_integer n)
  | .float x => ofJson_ofFloat_eq_iff.trans isLossless_float.symm
  | .bytes b => iff_of_false (fun same => nomatch same) (not_isLossless_bytes b)
  | .array items => by
    rw [toJson, ofJson, Value.array.injEq, isLossless_array]
    exact ofJsonItems_toJsonItems_eq_iff items
  | .object fields => by
    rw [toJson, ofJson, Value.object.injEq, isLossless_object]
    exact ofJsonFields_toJsonFields_eq_iff fields

theorem ofJsonItems_toJsonItems_eq_iff : ∀ items : List Value,
    ofJsonItems (toJsonItems items) = items ↔ ∀ item ∈ items, item.IsLossless
  | [] => iff_of_true rfl (List.forall_mem_nil _)
  | item :: rest => by
    rw [toJsonItems, ofJsonItems, List.cons.injEq, List.forall_mem_cons, ofJson_toJson_eq_iff item,
      ofJsonItems_toJsonItems_eq_iff rest]

theorem ofJsonFields_toJsonFields_eq_iff : ∀ fields : List (String × Value),
    ofJsonFields (toJsonFields fields) = fields ↔ ∀ field ∈ fields, field.2.IsLossless
  | [] => iff_of_true rfl (List.forall_mem_nil _)
  | (name, item) :: rest => by
    rw [toJsonFields, ofJsonFields, List.cons.injEq, Prod.mk.injEq, List.forall_mem_cons,
      ofJson_toJson_eq_iff item, ofJsonFields_toJsonFields_eq_iff rest]
    exact and_congr_left fun _ => and_iff_right rfl

end

theorem integersFit_ofFloat (x : Binary64) : (Json.ofFloat x).IntegersFit := by
  intro n inside
  rw [Json.ofFloat] at inside
  split at inside
  · cases inside
  · cases inside

mutual

theorem integersFit_toJson : ∀ v : Value, v.toJson.IntegersFit
  | .null | .bool _ | .string _ | .bytes _ => fun _ inside => nomatch inside
  | .integer n => Json.integersFit_integer.mpr ⟨n.le_toInt, n.toInt_lt⟩
  | .float x => integersFit_ofFloat x
  | .array items => Json.integersFit_array.mpr (integersFit_toJsonItems items)
  | .object fields => Json.integersFit_object.mpr (integersFit_toJsonFields fields)

theorem integersFit_toJsonItems : ∀ items : List Value,
    ∀ item ∈ toJsonItems items, item.IntegersFit
  | [] => List.forall_mem_nil _
  | item :: rest => List.forall_mem_cons.mpr ⟨integersFit_toJson item, integersFit_toJsonItems rest⟩

theorem integersFit_toJsonFields : ∀ fields : List (String × Value),
    ∀ field ∈ toJsonFields fields, field.2.IntegersFit
  | [] => List.forall_mem_nil _
  | (_, item) :: rest =>
    List.forall_mem_cons.mpr ⟨integersFit_toJson item, integersFit_toJsonFields rest⟩

end

theorem isFinite_ofInt_of_word {n : ℤ} (low : -2 ^ 63 ≤ n) (high : n < 2 ^ 64) :
    (Binary64.ofInt n).isFinite = true := by
  have below : |(n : ℚ)| < 2 ^ (65 : ℤ) := by
    have small : |n| < 2 ^ 65 := abs_lt.mpr ⟨by omega, by omega⟩
    exact_mod_cast small
  exact (Binary64.ofInt_approximates n).magnitude.finite
    (Binary64.lt_overflowThreshold below (by norm_num))

theorem isLossless_ofNumber {n : JsonNumber} (words : Json.IntegersAreWords (.number n)) :
    IsLossless (ofNumber n) := by
  cases n with
  | float x finite => exact isLossless_float.mpr finite
  | integer n =>
    obtain ⟨low, high⟩ := Json.everyInteger_integer.mp words
    by_cases fits : -2 ^ 63 ≤ n ∧ n < 2 ^ 63
    · rw [ofNumber_of_fits fits.1 fits.2]
      exact isLossless_integer _
    · rw [ofNumber_of_exceeds fits]
      exact isLossless_float.mpr (isFinite_ofInt_of_word low high)

mutual

theorem isLossless_ofJson : ∀ document : Json, document.IntegersAreWords →
    IsLossless (ofJson document)
  | .null, _ | .bool _, _ | .string _, _ =>
    ⟨fun _ inside => (nomatch inside), fun _ inside => (nomatch inside)⟩
  | .number _, words => isLossless_ofNumber words
  | .array items, words =>
    isLossless_array.mpr (isLossless_ofJsonItems items (Json.everyInteger_array.mp words))
  | .object fields, words =>
    isLossless_object.mpr (isLossless_ofJsonFields fields (Json.everyInteger_object.mp words))

theorem isLossless_ofJsonItems : ∀ items : List Json, (∀ item ∈ items, item.IntegersAreWords) →
    ∀ item ∈ ofJsonItems items, IsLossless item
  | [], _ => List.forall_mem_nil _
  | item :: rest, words => by
    rw [List.forall_mem_cons] at words
    rw [ofJsonItems, List.forall_mem_cons]
    exact ⟨isLossless_ofJson item words.1, isLossless_ofJsonItems rest words.2⟩

theorem isLossless_ofJsonFields : ∀ fields : List (String × Json),
    (∀ field ∈ fields, field.2.IntegersAreWords) →
      ∀ field ∈ ofJsonFields fields, IsLossless field.2
  | [], _ => List.forall_mem_nil _
  | (_, item) :: rest, words => by
    rw [List.forall_mem_cons] at words
    rw [ofJsonFields, List.forall_mem_cons]
    exact ⟨isLossless_ofJson item words.1, isLossless_ofJsonFields rest words.2⟩

end

/-- Exactly the values without loss are found again, the document of any value stays the same when
it is read and shown again, and so does every document whose integers fit. -/
theorem values_and_documents_convert_back :
    (∀ v : Value, ofJson v.toJson = v ↔ v.IsLossless) ∧
      (∀ v : Value, (ofJson v.toJson).toJson = v.toJson) ∧
      ∀ document : Json, document.IntegersFit → (ofJson document).toJson = document :=
  ⟨ofJson_toJson_eq_iff, fun v => toJson_ofJson v.toJson (integersFit_toJson v), toJson_ofJson⟩

theorem values_and_documents_convert_back_zero :
    let v : Value :=
      .object [("b", .array [.float (.zero true), .float (.ofInt 1)]), ("a", .integer 1)]
    let lost : Value := .array [.bytes [97], .float .nan]
    v.toJson.IntegersFit ∧ (ofJson v.toJson).toJson = v.toJson ∧ ofJson v.toJson = v ∧
      ofJson lost.toJson ≠ lost ∧ ofJson lost.toJson = .array [.string "a", .null] := by
  intro v lost
  obtain ⟨lossless, -, shown⟩ := values_and_documents_convert_back
  have fits : v.toJson.IntegersFit := integersFit_toJson v
  have kept : v.IsLossless := by
    refine isLossless_object.mpr (List.forall_mem_cons.mpr ⟨isLossless_array.mpr ?_, ?_⟩)
    · simp only [List.forall_mem_cons, isLossless_float]
      exact ⟨rfl, rfl, List.forall_mem_nil _⟩
    · exact List.forall_mem_singleton.mpr (isLossless_integer 1)
  have changed : ¬ lost.IsLossless := fun whole =>
    not_isLossless_bytes [97] (isLossless_array.mp whole _ List.mem_cons_self)
  exact ⟨fits, shown _ fits, (lossless v).mpr kept, mt (lossless lost).mp changed, rfl⟩

end ConfigExpr.Value
