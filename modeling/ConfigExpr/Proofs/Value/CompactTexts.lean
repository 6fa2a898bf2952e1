import ConfigExpr.Value.Basic

/-!
The two ways to the compact text of a value, over its document and directly, lead to one text.
-/
namespace ConfigExpr.Value

theorem compact_ofFloat (x : Binary64) :
    (Json.ofFloat x).compact = if x.isFinite then Json.floatText x else "null" := by
  rw [Json.ofFloat]
  split <;> rfl

mutual

theorem compact_toJson : ∀ v : Value, v.toJson.compact = v.compact
  | .null | .bool _ | .integer _ | .string _ | .bytes _ => rfl
  | .float x => compact_ofFloat x
  | .array items => by rw [toJson, Json.compact, compact, compact_toJsonItems items]
  | .object fields => by rw [toJson, Json.compact, compact, compact_toJsonFields fields]

theorem compact_toJsonItems : ∀ items : List Value,
    Json.compactItems (toJsonItems items) = compactItems items
  | [] => rfl
  | [item] => compact_toJson item
  | item :: next :: rest => by
    change item.toJson.compact ++ "," ++ Json.compactItems (toJsonItems (next :: rest)) =
      item.compact ++ "," ++ compactItems (next :: rest)
    rw [compact_toJson item, compact_toJsonItems (next :: rest)]

theorem compact_toJsonFields : ∀ fields : List (String × Value),
    Json.compactFields (toJsonFields fields) = compactFields fields
  | [] => rfl
  | [(name, item)] => congrArg (Json.quote name ++ ":" ++ ·) (compact_toJson item)
  | (name, item) :: (name', next) :: rest => by
    change Json.quote name ++ ":" ++ item.toJson.compact ++ "," ++
        Json.compactFields (toJsonFields ((name', next) :: rest)) =
      Json.quote name ++ ":" ++ item.compact ++ "," ++ compactFields ((name', next) :: rest)
    rw [compact_toJson item, compact_toJsonFields ((name', next) :: rest)]

end

/-- The text that is written without a document is the one that is written over it. -/
theorem compact_eq_canonicalText (v : Value) : v.compact = v.canonicalText :=
  (compact_toJson v).symm

/-- Malformed bytes are replaced, a number that is not one is null, and a zero keeps its sign. -/
example : compact (.array [.bytes [0x61, 0xFF], .float .nan, .float (.zero true)]) =
    "[\"a\uFFFD\",null,-0.0]" := by
  decide +kernel

end ConfigExpr.Value
