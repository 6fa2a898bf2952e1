import ConfigExpr.Proofs.Outcome
import ConfigExpr.Proofs.Text.Utf8Encoding
import ConfigExpr.Value.Coercion

/-!
The bytes and the text of a scalar. They say the same unless the scalar is raw bytes that form no
text; then the text has at least as many bytes, but not the same ones.
-/
namespace ConfigExpr.Value
open Outcome

def heldBytes (v : Value) : List UInt8 :=
  v.bytes?.getD []

def shownText (v : Value) : String :=
  v.text?.getD ""

def holdsText (v : Value) : Bool :=
  (Utf8.decode? v.heldBytes).isSome

section Scalars
variable {v : Value} {values : List Value}

theorem text?_of_isScalar (scalar : v.isScalar = true) : v.text? = some v.shownText := by
  cases v with
  | array items | object fields => cases scalar
  | null | bool b | integer n | float x | string s | bytes b => rfl

theorem bytes?_of_isScalar (scalar : v.isScalar = true) : v.bytes? = some v.heldBytes := by
  cases v with
  | array items | object fields => cases scalar
  | null | bool b | integer n | float x | string s | bytes b => rfl

theorem bytes?_eq_none : v.bytes? = none ↔ v.isScalar = false := by
  cases v with
  | array items | object fields => exact ⟨fun _ => rfl, fun _ => rfl⟩
  | null | bool b | integer n | float x | string s | bytes b => exact ⟨nofun, nofun⟩

theorem mapM_text? (scalars : ∀ v ∈ values, v.isScalar = true) :
    values.mapM text? = some (values.map shownText) := by
  rw [mapM_eq_some, List.map_map]
  exact List.map_congr_left fun v member => text?_of_isScalar (scalars v member)

theorem mapM_bytes? (scalars : ∀ v ∈ values, v.isScalar = true) :
    values.mapM bytes? = some (values.map heldBytes) := by
  rw [mapM_eq_some, List.map_map]
  exact List.map_congr_left fun v member => bytes?_of_isScalar (scalars v member)

theorem length_heldBytes_le (scalar : v.isScalar = true) :
    v.heldBytes.length ≤ (Utf8.encode v.shownText).length := by
  cases v with
  | array items | object fields => cases scalar
  | bytes b => exact Utf8.length_le_length_encode_decodeLossy b
  | null | bool b | integer n | float x | string s => exact Nat.le_refl _

theorem encode_shownText_eq_iff (scalar : v.isScalar = true) :
    Utf8.encode v.shownText = v.heldBytes ↔ v.holdsText = true := by
  have ofText (text : String) :
      Utf8.encode text = Utf8.encode text ↔ (Utf8.decode? (Utf8.encode text)).isSome = true := by
    simp only [Utf8.decode?_encode, Option.isSome_some]
  cases v with
  | array items | object fields => cases scalar
  | bytes b => exact Utf8.encode_decodeLossy_eq_iff
  | null | bool b | integer n | float x | string s => exact ofText _

end Scalars

end ConfigExpr.Value
