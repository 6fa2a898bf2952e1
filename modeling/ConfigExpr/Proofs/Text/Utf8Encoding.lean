import ConfigExpr.Proofs.Text.Utf8Decoding

/-!
Encoding what was decoded. A unit that is a character has no bytes but those of the character,
so bytes that are text throughout are the bytes of the text that they decode to. The character that
stands for a malformed part is no shorter than the part, and other bytes.
-/
namespace ConfigExpr.Utf8

section Units
variable {a b c d : UInt8} {n : Nat}

theorem byte_eq (same : n = a.toNat) : UInt8.ofNat n = a := by
  rw [same, UInt8.ofNat_toNat]

theorem toNat_char (valid : n.isValidChar) : (Char.ofNat n).toNat = n := by
  rw [Char.ofNat, dif_pos valid]
  rfl

theorem isContinuation_iff : isContinuation b = true ↔ 0x80 ≤ b.toNat ∧ b.toNat ≤ 0xBF := by
  simp only [isContinuation, UInt8.le_iff_toNat_le, UInt8.reduceToNat, Bool.and_eq_true,
    decide_eq_true_eq]

theorem encodeChar_one (ascii : a.toNat < 0x80) : encodeChar (Char.ofNat a.toNat) = [a] := by
  simp only [encodeChar, toNat_char (n := a.toNat) (.inl (by omega))]
  rw [if_pos ascii, byte_eq rfl]

theorem encodeChar_two (low : 0xC2 ≤ a.toNat) (high : a.toNat ≤ 0xDF)
    (second : isContinuation b = true) :
    encodeChar (Char.ofNat ((a.toNat - 0xC0) * 64 + payload b)) = [a, b] := by
  rw [isContinuation_iff] at second
  rw [payload, encodeChar, toNat_char (.inl (by omega))]
  rw [if_neg (by omega), if_pos (by omega), byte_eq (show _ = a.toNat by omega),
    byte_eq (show _ = b.toNat by omega)]

theorem encodeChar_three (low : 0xE0 ≤ a.toNat) (high : a.toNat ≤ 0xEF)
    (second : secondOfThree a b = true) (third : isContinuation c = true) :
    encodeChar (Char.ofNat ((a.toNat - 0xE0) * 4096 + payload b * 64 + payload c)) = [a, b, c] := by
  simp only [secondOfThree, Bool.and_eq_true, isContinuation_iff, Bool.not_eq_true',
    Bool.and_eq_false_iff, beq_eq_false_iff_ne, ne_eq, decide_eq_false_iff_not,
    UInt8.lt_iff_toNat_lt, UInt8.le_iff_toNat_le, ← UInt8.toNat_inj, UInt8.reduceToNat] at second
  rw [isContinuation_iff] at third
  rw [payload, payload, encodeChar, toNat_char (by omega)]
  rw [if_neg (by omega), if_neg (by omega), if_pos (by omega), byte_eq (show _ = a.toNat by omega),
    byte_eq (show _ = b.toNat by omega), byte_eq (show _ = c.toNat by omega)]

theorem encodeChar_four (low : 0xF0 ≤ a.toNat) (high : a.toNat ≤ 0xF4)
    (second : secondOfFour a b = true) (third : isContinuation c = true)
    (fourth : isContinuation d = true) :
    encodeChar (Char.ofNat ((a.toNat - 0xF0) * 262144 + payload b * 4096 + payload c * 64 +
      payload d)) = [a, b, c, d] := by
  simp only [secondOfFour, Bool.and_eq_true, isContinuation_iff, Bool.not_eq_true',
    Bool.and_eq_false_iff, beq_eq_false_iff_ne, ne_eq, decide_eq_false_iff_not,
    UInt8.lt_iff_toNat_lt, UInt8.le_iff_toNat_le, ← UInt8.toNat_inj, UInt8.reduceToNat] at second
  rw [isContinuation_iff] at third fourth
  rw [payload, payload, payload, encodeChar, toNat_char (by omega)]
  rw [if_neg (by omega), if_neg (by omega), if_neg (by omega), byte_eq (show _ = a.toNat by omega),
    byte_eq (show _ = b.toNat by omega), byte_eq (show _ = c.toNat by omega),
    byte_eq (show _ = d.toNat by omega)]

end Units

/-- The units seen are the first characters of a text, and bytes are those of the others. -/
def Continues (seen : List (Option Char)) (bytes : List UInt8) (text : List Char) : Prop :=
  ∃ before after, seen.reverse = before.map some ∧ text = before ++ after ∧
    encodeChars after = bytes

namespace Continues
variable {seen : List (Option Char)} {bytes rest : List UInt8} {text : List Char} {c : Char}

theorem at_end (chars : seen.reverse = text.map some) : Continues seen [] text :=
  ⟨text, [], chars, (List.append_nil text).symm, rfl⟩

theorem of_char (continues : Continues (some c :: seen) rest text)
    (encoded : encodeChar c ++ rest = bytes) : Continues seen bytes text := by
  obtain ⟨before, after, seenBefore, rfl, rfl⟩ := continues
  rw [List.reverse_cons] at seenBefore
  obtain ⟨first, last, rfl, firstSeen, lastSeen⟩ := List.map_eq_append_iff.mp seenBefore.symm
  obtain ⟨d, rfl, same⟩ := List.map_eq_singleton_iff.mp lastSeen
  obtain rfl := Option.some.inj same
  exact ⟨first, d :: after, firstSeen.symm, List.append_assoc first [d] after, encoded⟩

theorem not_malformed : ¬ Continues (none :: seen) bytes text := by
  rintro ⟨before, after, seenBefore, -, -⟩
  have malformed : none ∈ before.map some := by
    rw [← seenBefore]
    exact List.mem_reverse.mpr List.mem_cons_self
  obtain ⟨c, -, isChar⟩ := List.mem_map.mp malformed
  exact Option.some_ne_none c isChar

end Continues

theorem continues_of_unitsOnto {seen : List (Option Char)} {bytes : List UInt8} {text : List Char}
    (chars : unitsOnto seen bytes = text.map some) : Continues seen bytes text := by
  fun_induction unitsOnto seen bytes
  case case1 => exact .at_end chars
  case case2 a rest ascii ih =>
    have encoded := encodeChar_one (UInt8.lt_iff_toNat_lt.mp ascii)
    exact (ih chars).of_char (by rw [encoded]; rfl)
  case case4 a _ lead b rest second ih =>
    simp only [Bool.and_eq_true, decide_eq_true_eq, UInt8.le_iff_toNat_le] at lead
    have encoded := encodeChar_two lead.1 lead.2 second
    exact (ih chars).of_char (by rw [encoded]; rfl)
  case case8 a _ _ lead b second c rest third ih =>
    simp only [Bool.and_eq_true, decide_eq_true_eq, UInt8.le_iff_toNat_le] at lead
    have encoded := encodeChar_three lead.1 lead.2 second third
    exact (ih chars).of_char (by rw [encoded]; rfl)
  case case14 a _ _ _ lead b second c third d rest fourth ih =>
    simp only [Bool.and_eq_true, decide_eq_true_eq, UInt8.le_iff_toNat_le] at lead
    have encoded := encodeChar_four lead.1 lead.2 second third fourth
    exact (ih chars).of_char (by rw [encoded]; rfl)
  -- In the other cases a malformed part was added, either as the last unit or before the next.
  all_goals first
    | exact (Continues.not_malformed (.at_end chars)).elim
    | next ih => exact (Continues.not_malformed (ih chars)).elim

theorem encodeChars_of_units {bytes : List UInt8} {text : List Char}
    (chars : units bytes = text.map some) : encodeChars text = bytes := by
  obtain ⟨before, after, none, rfl, encoded⟩ := continues_of_unitsOnto chars
  obtain rfl := List.map_eq_nil_iff.mp none.symm
  exact encoded

theorem encode_of_decode? {bytes : List UInt8} {text : String}
    (decoded : decode? bytes = some text) : encode text = bytes := by
  obtain ⟨chars, all, rfl⟩ := Option.map_eq_some_iff.mp decoded
  rw [encode, String.toList_ofList]
  exact encodeChars_of_units ((List.map_id _).symm.trans (Outcome.mapM_eq_some.mp all))

theorem encode_of_decodeLossy {bytes : List UInt8} {text : String}
    (decoded : decodeLossy bytes = text) (clean : replacement ∉ text.toList) :
    encode text = bytes := by
  subst decoded
  rw [decodeLossy, String.toList_ofList] at clean
  rw [encode, decodeLossy, String.toList_ofList]
  refine encodeChars_of_units ((List.map_id _).symm.trans ?_)
  rw [List.map_map]
  refine List.map_congr_left fun unit member => ?_
  cases unit with
  | some c => rfl
  | none => exact absurd (List.mem_map_of_mem member) clean

/-- The bytes of the characters that are shown for units. -/
def shownLength (units : List (Option Char)) : Nat :=
  (encodeChars (units.map fun unit => unit.getD replacement)).length

section Shown
variable {seen : List (Option Char)} {front rest : List UInt8} {c : Char} {n : Nat}

theorem shownLength_cons (unit : Option Char) (units : List (Option Char)) :
    shownLength (unit :: units) =
      (encodeChar (unit.getD replacement)).length + shownLength units := by
  rw [shownLength, List.map_cons, encodeChars, List.flatMap_cons, List.length_append, shownLength,
    encodeChars]

theorem shownLength_malformed (units : List (Option Char)) :
    shownLength (none :: units) = 3 + shownLength units :=
  shownLength_cons none units

theorem shownLength_reverse (units : List (Option Char)) :
    shownLength units.reverse = shownLength units := by
  simp only [shownLength, encodeChars, List.length_flatMap, List.map_reverse, List.map_map,
    List.sum_reverse]

theorem shownLength_le_behind (encoded : encodeChar c = front)
    (others : shownLength (some c :: seen) + rest.length ≤ n) :
    shownLength seen + (front ++ rest).length ≤ n := by
  rw [shownLength_cons, Option.getD_some, encoded] at others
  rw [List.length_append]
  omega

end Shown

theorem shownLength_unitsOnto (seen : List (Option Char)) (bytes : List UInt8) :
    shownLength seen + bytes.length ≤ shownLength (unitsOnto seen bytes) := by
  fun_induction unitsOnto seen bytes
  case case1 => exact Nat.le_of_eq (shownLength_reverse _).symm
  case case2 a rest ascii ih =>
    exact shownLength_le_behind (encodeChar_one (UInt8.lt_iff_toNat_lt.mp ascii)) ih
  case case4 a _ lead b rest second ih =>
    simp only [Bool.and_eq_true, decide_eq_true_eq, UInt8.le_iff_toNat_le] at lead
    exact shownLength_le_behind (encodeChar_two lead.1 lead.2 second) ih
  case case8 a _ _ lead b second c rest third ih =>
    simp only [Bool.and_eq_true, decide_eq_true_eq, UInt8.le_iff_toNat_le] at lead
    exact shownLength_le_behind (encodeChar_three lead.1 lead.2 second third) ih
  case case14 a _ _ _ lead b second c third d rest fourth ih =>
    simp only [Bool.and_eq_true, decide_eq_true_eq, UInt8.le_iff_toNat_le] at lead
    exact shownLength_le_behind (encodeChar_four lead.1 lead.2 second third fourth) ih
  -- In the other cases a malformed part was added, either as the last unit or before the next.
  all_goals
    simp only [shownLength_reverse, shownLength_malformed, List.length_cons, List.length_nil] at *
    omega

theorem length_le_length_encode_decodeLossy (bytes : List UInt8) :
    bytes.length ≤ (encode (decodeLossy bytes)).length := by
  have bound := shownLength_unitsOnto [] bytes
  rw [encode, decodeLossy, String.toList_ofList]
  exact Nat.le_trans (Nat.le_add_left _ _) bound

theorem encode_decodeLossy_eq_iff {bytes : List UInt8} :
    encode (decodeLossy bytes) = bytes ↔ (decode? bytes).isSome = true := by
  constructor
  · intro same
    rw [← same, decode?_encode, Option.isSome_some]
  · intro isText
    obtain ⟨text, decoded⟩ := Option.isSome_iff_exists.mp isText
    rw [← encode_of_decode? decoded, decodeLossy_encode]

end ConfigExpr.Utf8
