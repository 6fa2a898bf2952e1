import Mathlib.Data.List.Flatten
import ConfigExpr.Text.Utf8

/-!
Texts that are measured and cut by the bytes of their UTF-8. A place to cut at stands between two
characters or at an end of the text; any other number of bytes is outside the text or inside a
character.
-/
namespace ConfigExpr.Utf8
variable {text front rest : List Char} {n : Nat}

def byteLength (text : List Char) : Nat :=
  (encodeChars text).length

theorem byteLength_append (front rest : List Char) :
    byteLength (front ++ rest) = byteLength front + byteLength rest := by
  rw [byteLength, encodeChars_append, List.length_append, byteLength, byteLength]

theorem byteLength_cons (c : Char) (rest : List Char) :
    byteLength (c :: rest) = (encodeChar c).length + byteLength rest := by
  rw [byteLength, encodeChars, List.flatMap_cons, List.length_append, byteLength, encodeChars]

theorem length_encodeChar_pos (c : Char) : 0 < (encodeChar c).length := by
  rw [encodeChar]
  split
  next => exact Nat.succ_pos _
  next =>
    split
    next => exact Nat.succ_pos _
    next => split <;> exact Nat.succ_pos _

theorem byteLength_pos (filled : text ≠ []) : 0 < byteLength text := by
  obtain ⟨c, rest, rfl⟩ := List.exists_cons_of_ne_nil filled
  rw [byteLength_cons]
  exact Nat.add_pos_left (length_encodeChar_pos c) _

theorem byteLength_le_of_sublist (part : rest.Sublist text) : byteLength rest ≤ byteLength text :=
  (part.flatMap encodeChar).length_le

theorem length_encodeChar_toLower (c : Char) :
    (encodeChar c.toLower).length = (encodeChar c).length := by
  by_cases upper : 65 ≤ c.toNat ∧ c.toNat ≤ 90
  · have each : ∀ n ≤ 90, (Char.ofNat n).toLower.toNat < 0x80 := by decide
    have lower := each c.toNat upper.2
    rw [Char.ofNat_toNat] at lower
    have ascii : c.toNat < 0x80 := Nat.lt_of_le_of_lt upper.2 (by decide)
    rw [encodeChar, encodeChar, if_pos lower, if_pos ascii, List.length_singleton,
      List.length_singleton]
  · have same : c.toLower = c := dif_neg upper
    rw [same]

theorem byteLength_map_toLower (text : List Char) :
    byteLength (text.map Char.toLower) = byteLength text := by
  induction text with
  | nil => rfl
  | cons c rest ih =>
    rw [List.map_cons, byteLength_cons, byteLength_cons, length_encodeChar_toLower, ih]

/-- What is left behind so many bytes, unless the text is shorter or they end inside a character. -/
def cut? : Nat → List Char → Option (List Char)
  | 0, text => some text
  | _ + 1, [] => none
  | n + 1, c :: rest =>
    if (encodeChar c).length ≤ n + 1 then cut? (n + 1 - (encodeChar c).length) rest else none

theorem cut?_cons (n : Nat) (c : Char) (rest : List Char) :
    cut? ((encodeChar c).length + n) (c :: rest) = cut? n rest := by
  obtain ⟨more, length⟩ := Nat.exists_eq_add_one.mpr (length_encodeChar_pos c)
  rw [length, Nat.add_right_comm, cut?, length, if_pos (by omega)]
  exact congrArg (cut? · rest) (by omega)

theorem cut?_append (front rest : List Char) :
    cut? (byteLength front) (front ++ rest) = some rest := by
  induction front with
  | nil => cases rest <;> rfl
  | cons c front ih => rw [List.cons_append, byteLength_cons, cut?_cons, ih]

theorem cut?_eq_some :
    cut? n text = some rest ↔ ∃ front, text = front ++ rest ∧ byteLength front = n := by
  constructor
  · intro found
    induction text generalizing n with
    | nil =>
      cases n with
      | zero => exact ⟨[], Option.some.inj found, rfl⟩
      | succ n => cases found
    | cons c behind ih =>
      cases n with
      | zero => exact ⟨[], Option.some.inj found, rfl⟩
      | succ n =>
        obtain ⟨fits, found⟩ := Option.ite_none_right_eq_some.mp found
        obtain ⟨front, rfl, length⟩ := ih found
        exact ⟨c :: front, rfl, by rw [byteLength_cons, length]; omega⟩
  · rintro ⟨front, rfl, rfl⟩
    exact cut?_append front rest

end ConfigExpr.Utf8
