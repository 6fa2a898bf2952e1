import ConfigExpr.Proofs.Text.Utf8Decoding
import ConfigExpr.Value.Kind

/-!
Texts and their bytes. Two values are interchangeable if they differ only in texts where the other
holds the bytes of the text. The raw form of a value holds bytes in place of every text, so values
are interchangeable exactly if their raw forms are equal, and all that functions observe of a value
they observe of its raw form.
-/
namespace ConfigExpr.Value

mutual

/-- Equal up to texts that stand where the other value has their bytes. -/
inductive Interchangeable : Value → Value → Prop where
  | same (v : Value) : Interchangeable v v
  | encoded (s : String) : Interchangeable (.string s) (.bytes (Utf8.encode s))
  | decoded (s : String) : Interchangeable (.bytes (Utf8.encode s)) (.string s)
  | array {items others : List Value} (each : InterchangeableItems items others) :
      Interchangeable (.array items) (.array others)
  | object {fields others : List (String × Value)} (each : InterchangeableFields fields others) :
      Interchangeable (.object fields) (.object others)

inductive InterchangeableItems : List Value → List Value → Prop where
  | nil : InterchangeableItems [] []
  | cons {v w : Value} {items others : List Value} (first : Interchangeable v w)
      (rest : InterchangeableItems items others) : InterchangeableItems (v :: items) (w :: others)

inductive InterchangeableFields : List (String × Value) → List (String × Value) → Prop where
  | nil : InterchangeableFields [] []
  | cons {v w : Value} {fields others : List (String × Value)} (name : String)
      (first : Interchangeable v w) (rest : InterchangeableFields fields others) :
      InterchangeableFields ((name, v) :: fields) ((name, w) :: others)

end

mutual

/-- The value with bytes in place of every text. -/
def raw : Value → Value
  | .null => .null
  | .bool b => .bool b
  | .integer n => .integer n
  | .float x => .float x
  | .string s => .bytes (Utf8.encode s)
  | .bytes b => .bytes b
  | .array items => .array (rawItems items)
  | .object fields => .object (rawFields fields)

def rawItems : List Value → List Value
  | [] => []
  | item :: rest => raw item :: rawItems rest

def rawFields : List (String × Value) → List (String × Value)
  | [] => []
  | (name, item) :: rest => (name, raw item) :: rawFields rest

end

theorem rawItems_eq_map (items : List Value) : rawItems items = items.map raw := by
  induction items with
  | nil => rfl
  | cons item rest ih => rw [rawItems, ih, List.map_cons]

theorem map_snd_rawFields (fields : List (String × Value)) :
    (rawFields fields).map Prod.snd = (fields.map Prod.snd).map raw := by
  induction fields with
  | nil => rfl
  | cons field rest ih => simp only [rawFields, List.map_cons, ih]

mutual

theorem raw_raw : ∀ v : Value, v.raw.raw = v.raw
  | .null | .bool _ | .integer _ | .float _ | .string _ | .bytes _ => rfl
  | .array items => congrArg Value.array (rawItems_rawItems items)
  | .object fields => congrArg Value.object (rawFields_rawFields fields)

theorem rawItems_rawItems : ∀ items : List Value, rawItems (rawItems items) = rawItems items
  | [] => rfl
  | item :: rest => by rw [rawItems, rawItems, raw_raw item, rawItems_rawItems rest]

theorem rawFields_rawFields : ∀ fields : List (String × Value),
    rawFields (rawFields fields) = rawFields fields
  | [] => rfl
  | (name, item) :: rest => by rw [rawFields, rawFields, raw_raw item, rawFields_rawFields rest]

end

mutual

theorem raw_eq_of_interchangeable {v w : Value} : Interchangeable v w → v.raw = w.raw
  | .same v => rfl
  | .encoded s => rfl
  | .decoded s => rfl
  | .array each => congrArg Value.array (rawItems_eq_of_interchangeable each)
  | .object each => congrArg Value.object (rawFields_eq_of_interchangeable each)

theorem rawItems_eq_of_interchangeable {items others : List Value} :
    InterchangeableItems items others → rawItems items = rawItems others
  | .nil => rfl
  | .cons first rest => by
    rw [rawItems, rawItems, raw_eq_of_interchangeable first, rawItems_eq_of_interchangeable rest]

theorem rawFields_eq_of_interchangeable {fields others : List (String × Value)} :
    InterchangeableFields fields others → rawFields fields = rawFields others
  | .nil => rfl
  | .cons name first rest => by
    rw [rawFields, rawFields, raw_eq_of_interchangeable first, rawFields_eq_of_interchangeable rest]

end

mutual

theorem interchangeable_of_raw_eq : ∀ {v w : Value}, v.raw = w.raw → Interchangeable v w
  | .null, w => fun same => by cases w <;> cases same; exact .same _
  | .bool b, w => fun same => by cases w <;> cases same; exact .same _
  | .integer n, w => fun same => by cases w <;> cases same; exact .same _
  | .float x, w => fun same => by cases w <;> cases same; exact .same _
  | .string s, w => fun same => by
    cases w with
    | string t =>
      obtain rfl := Utf8.encode_injective (Value.bytes.inj same)
      exact .same _
    | bytes b => cases same; exact .encoded s
    | _ => cases same
  | .bytes b, w => fun same => by
    cases w with
    | string t => cases same; exact .decoded t
    | bytes c => cases same; exact .same _
    | _ => cases same
  | .array items, w => fun same => by
    cases w with
    | array others => exact .array (interchangeableItems_of_raw_eq (Value.array.inj same))
    | _ => cases same
  | .object fields, w => fun same => by
    cases w with
    | object others => exact .object (interchangeableFields_of_raw_eq (Value.object.inj same))
    | _ => cases same

theorem interchangeableItems_of_raw_eq : ∀ {items others : List Value},
    rawItems items = rawItems others → InterchangeableItems items others
  | [], others => fun same => by cases others <;> cases same; exact .nil
  | item :: rest, others => fun same => by
    cases others with
    | nil => cases same
    | cons other more =>
      obtain ⟨first, others⟩ := List.cons.inj same
      exact .cons (interchangeable_of_raw_eq first) (interchangeableItems_of_raw_eq others)

theorem interchangeableFields_of_raw_eq : ∀ {fields others : List (String × Value)},
    rawFields fields = rawFields others → InterchangeableFields fields others
  | [], others => fun same => by cases others <;> cases same; exact .nil
  | (name, item) :: rest, others => fun same => by
    cases others with
    | nil => cases same
    | cons other more =>
      obtain ⟨first, others⟩ := List.cons.inj same
      obtain ⟨rfl, item⟩ := Prod.mk.inj first
      exact .cons _ (interchangeable_of_raw_eq item) (interchangeableFields_of_raw_eq others)

end

section Observations
variable (v : Value)

@[simp] theorem isNull_raw : v.raw.isNull = v.isNull := by
  cases v <;> rfl

@[simp] theorem isScalar_raw : v.raw.isScalar = v.isScalar := by
  cases v <;> rfl

@[simp] theorem kind_raw : v.raw.kind = v.kind := by
  cases v <;> rfl

@[simp] theorem typeName_raw : v.raw.typeName = v.typeName := by
  cases v <;> rfl

@[simp] theorem text?_raw : v.raw.text? = v.text? := by
  cases v with
  | string s => exact congrArg some (Utf8.decodeLossy_encode s)
  | _ => rfl

@[simp] theorem bytes?_raw : v.raw.bytes? = v.bytes? := by
  cases v <;> rfl

@[simp] theorem integer?_raw : v.raw.integer? = v.integer? := by
  cases v with
  | string s => exact congrArg textToInteger? (Utf8.decodeLossy_encode s)
  | _ => rfl

@[simp] theorem float?_raw : v.raw.float? = v.float? := by
  cases v with
  | string s => exact congrArg textToFloat? (Utf8.decodeLossy_encode s)
  | _ => rfl

theorem encode_eq_iff {s t : String} : Utf8.encode s = Utf8.encode t ↔ s = t :=
  ⟨Utf8.encode_injective, congrArg Utf8.encode⟩

@[simp] theorem isEmpty_raw : v.raw.isEmpty = v.isEmpty := by
  cases v with
  | string s =>
    have none : Utf8.encode s = [] ↔ s = "" := @encode_eq_iff s ""
    have zero : Utf8.encode s = [48] ↔ s = "0" := @encode_eq_iff s "0"
    rw [Bool.eq_iff_iff]
    simp only [raw, isEmpty, Bool.or_eq_true, beq_iff_eq, none, zero]
  | array items => cases items <;> rfl
  | object fields => cases fields <;> rfl
  | _ => rfl

@[simp] theorem isTruthy_raw : v.raw.isTruthy = v.isTruthy := by
  rw [isTruthy, isTruthy, isEmpty_raw]

@[simp] theorem accepts_raw (kind : Kind) : kind.accepts v.raw = kind.accepts v := by
  cases kind with
  | array | object => cases v <;> rfl
  | _ => simp only [Kind.accepts, isNull_raw, isScalar_raw, integer?_raw, float?_raw]

end Observations

mutual

theorem toJson_raw : ∀ v : Value, v.raw.toJson = v.toJson
  | .null | .bool _ | .integer _ | .float _ | .bytes _ => rfl
  | .string s => congrArg Json.string (Utf8.decodeLossy_encode s)
  | .array items => congrArg Json.array (toJsonItems_raw items)
  | .object fields => congrArg Json.object (toJsonFields_raw fields)

theorem toJsonItems_raw : ∀ items : List Value, toJsonItems (rawItems items) = toJsonItems items
  | [] => rfl
  | item :: rest => by rw [rawItems, toJsonItems, toJsonItems, toJson_raw item, toJsonItems_raw rest]

theorem toJsonFields_raw : ∀ fields : List (String × Value),
    toJsonFields (rawFields fields) = toJsonFields fields
  | [] => rfl
  | (name, item) :: rest => by
    rw [rawFields, toJsonFields, toJsonFields, toJson_raw item, toJsonFields_raw rest]

end

mutual

theorem compact_raw : ∀ v : Value, v.raw.compact = v.compact
  | .null | .bool _ | .integer _ | .float _ | .bytes _ => rfl
  | .string s => congrArg Json.quote (Utf8.decodeLossy_encode s)
  | .array items => by rw [raw, compact, compact, compactItems_raw items]
  | .object fields => by rw [raw, compact, compact, compactFields_raw fields]

theorem compactItems_raw : ∀ items : List Value, compactItems (rawItems items) = compactItems items
  | [] => rfl
  | [item] => compact_raw item
  | item :: next :: rest => by
    change item.raw.compact ++ "," ++ compactItems (rawItems (next :: rest)) =
      item.compact ++ "," ++ compactItems (next :: rest)
    rw [compact_raw item, compactItems_raw (next :: rest)]

theorem compactFields_raw : ∀ fields : List (String × Value),
    compactFields (rawFields fields) = compactFields fields
  | [] => rfl
  | [(name, item)] => congrArg (Json.quote name ++ ":" ++ ·) (compact_raw item)
  | (name, item) :: (name', next) :: rest => by
    change Json.quote name ++ ":" ++ item.raw.compact ++ "," ++
        compactFields (rawFields ((name', next) :: rest)) =
      Json.quote name ++ ":" ++ item.compact ++ "," ++ compactFields ((name', next) :: rest)
    rw [compact_raw item, compactFields_raw ((name', next) :: rest)]

end

end ConfigExpr.Value
