import ConfigExpr.Proofs.Outcome
import ConfigExpr.Text.Utf8

/-!
Decoding what was encoded. The bytes of a character form one unit whatever follows them, so the bytes
of a text decode to the text and no replacement character comes in.
-/
namespace ConfigExpr.Utf8

section Units
variable {a b c d : UInt8} (seen : List (Option Char)) (rest : List UInt8)

theorem unitsOnto_one (ascii : a.toNat < 0x80) :
    unitsOnto seen (a :: rest) = unitsOnto (some (Char.ofNat a.toNat) :: seen) rest := by
  rw [unitsOnto.eq_def]
  exact if_pos (UInt8.lt_iff_toNat_lt.mpr ascii)

theorem unitsOnto_two (low : 0xC2 ≤ a.toNat) (high : a.toNat ≤ 0xDF)
    (second : isContinuation b = true) : unitsOnto seen (a :: b :: rest) =
      unitsOnto (some (Char.ofNat ((a.toNat - 0xC0) * 64 + payload b)) :: seen) rest := by
  rw [unitsOnto.eq_def]
  simp only [UInt8.lt_iff_toNat_lt, UInt8.le_iff_toNat_le, UInt8.reduceToNat, Bool.and_eq_true,
    decide_eq_true_eq]
  rw [if_neg (by omega), if_pos ⟨low, high⟩]
  simp only [second, if_true]

theorem unitsOnto_three (low : 0xE0 ≤ a.toNat) (high : a.toNat ≤ 0xEF)
    (second : secondOfThree a b = true) (third : isContinuation c = true) :
    unitsOnto seen (a :: b :: c :: rest) = unitsOnto
      (some (Char.ofNat ((a.toNat - 0xE0) * 4096 + payload b * 64 + payload c)) :: seen) rest := by
  rw [unitsOnto.eq_def]
  simp only [UInt8.lt_iff_toNat_lt, UInt8.le_iff_toNat_le, UInt8.reduceToNat, Bool.and_eq_true,
    decide_eq_true_eq]
  rw [if_neg (by omega), if_neg (by omega), if_pos ⟨low, high⟩]
  simp only [second, third, if_true]

theorem unitsOnto_four (low : 0xF0 ≤ a.toNat) (high : a.toNat ≤ 0xF4)
    (second : secondOfFour a b = true) (third : isContinuation c = true)
    (fourth : isContinuation d = true) :
    unitsOnto seen (a :: b :: c :: d :: rest) = unitsOnto
      (some (Char.ofNat ((a.toNat - 0xF0) * 262144 + payload b * 4096 + payload c * 64 +
        payload d)) :: seen) rest := by
  rw [unitsOnto.eq_def]
  simp only [UInt8.lt_iff_toNat_lt, UInt8.le_iff_toNat_le, UInt8.reduceToNat, Bool.and_eq_true,
    decide_eq_true_eq]
  rw [if_neg (by omega), if_neg (by omega), if_neg (by omega), if_pos ⟨low, high⟩]
  simp only [second, third, fourth, if_true]

end Units

section Bytes
variable {n k : Nat}

theorem toNat_byte (small : n < 256) : (UInt8.ofNat n).toNat = n :=
  UInt8.toNat_ofNat_of_lt small

theorem isContinuation_byte (low : k < 64) : isContinuation (UInt8.ofNat (0x80 + k)) = true := by
  simp only [isContinuation, UInt8.le_iff_toNat_le, UInt8.reduceToNat,
    toNat_byte (show 0x80 + k < 256 by omega), Bool.and_eq_true, decide_eq_true_eq]
  omega

theorem payload_byte (low : k < 64) : payload (UInt8.ofNat (0x80 + k)) = k := by
  rw [payload, toNat_byte (by omega)]
  omega

theorem secondOfThree_byte (low : 0x800 ≤ n) (high : n < 0x10000)
    (valid : n < 0xD800 ∨ 0xDFFF < n) :
    secondOfThree (UInt8.ofNat (0xE0 + n / 4096)) (UInt8.ofNat (0x80 + n / 64 % 64)) = true := by
  have lead : (UInt8.ofNat (0xE0 + n / 4096)).toNat = 0xE0 + n / 4096 := toNat_byte (by omega)
  have second : (UInt8.ofNat (0x80 + n / 64 % 64)).toNat = 0x80 + n / 64 % 64 :=
    toNat_byte (by omega)
  simp only [secondOfThree, isContinuation_byte (show n / 64 % 64 < 64 by omega), Bool.true_and,
    Bool.and_eq_true, Bool.not_eq_true', Bool.and_eq_false_iff, beq_eq_false_iff_ne, ne_eq,
    decide_eq_false_iff_not, UInt8.lt_iff_toNat_lt, UInt8.le_iff_toNat_le, ← UInt8.toNat_inj,
    lead, second, UInt8.reduceToNat]
  omega

theorem secondOfFour_byte (low : 0x10000 ≤ n) (high : n < 0x110000) :
    secondOfFour (UInt8.ofNat (0xF0 + n / 262144)) (UInt8.ofNat (0x80 + n / 4096 % 64)) =
      true := by
  have lead : (UInt8.ofNat (0xF0 + n / 262144)).toNat = 0xF0 + n / 262144 := toNat_byte (by omega)
  have second : (UInt8.ofNat (0x80 + n / 4096 % 64)).toNat = 0x80 + n / 4096 % 64 :=
    toNat_byte (by omega)
  simp only [secondOfFour, isContinuation_byte (show n / 4096 % 64 < 64 by omega), Bool.true_and,
    Bool.and_eq_true, Bool.not_eq_true', Bool.and_eq_false_iff, beq_eq_false_iff_ne, ne_eq,
    decide_eq_false_iff_not, UInt8.lt_iff_toNat_lt, UInt8.le_iff_toNat_le, ← UInt8.toNat_inj,
    lead, second, UInt8.reduceToNat]
  omega

end Bytes

theorem char_range (c : Char) : c.toNat < 0x110000 ∧ (c.toNat < 0xD800 ∨ 0xDFFF < c.toNat) := by
  have valid : c.toNat.isValidChar := c.valid
  simp only [Nat.isValidChar] at valid
  omega

theorem unitsOnto_encodeChar (seen : List (Option Char)) (c : Char) (rest : List UInt8) :
    unitsOnto seen (encodeChar c ++ rest) = unitsOnto (some c :: seen) rest := by
  obtain ⟨bound, valid⟩ := char_range c
  -- The cases are the lengths of the encoding; in each the units above put the number together again.
  have whole {n : Nat} (same : n = c.toNat) : Char.ofNat n = c := by
    rw [same, Char.ofNat_toNat]
  unfold encodeChar
  dsimp only
  split
  next one =>
    have lead := toNat_byte (show c.toNat < 256 by omega)
    rw [List.singleton_append, unitsOnto_one seen rest (by omega), whole lead]
  split
  next two =>
    have lead := toNat_byte (show 0xC0 + c.toNat / 64 < 256 by omega)
    have last : c.toNat % 64 < 64 := by omega
    simp only [List.cons_append, List.nil_append]
    rw [unitsOnto_two seen rest (by omega) (by omega) (isContinuation_byte last)]
    rw [payload_byte last, lead, whole (by omega)]
  split
  next three =>
    have lead := toNat_byte (show 0xE0 + c.toNat / 4096 < 256 by omega)
    have middle : c.toNat / 64 % 64 < 64 := by omega
    have last : c.toNat % 64 < 64 := by omega
    simp only [List.cons_append, List.nil_append]
    rw [unitsOnto_three seen rest (by omega) (by omega)
      (secondOfThree_byte (by omega) three valid) (isContinuation_byte last)]
    rw [payload_byte middle, payload_byte last, lead, whole (by omega)]
  next four =>
    have lead := toNat_byte (show 0xF0 + c.toNat / 262144 < 256 by omega)
    have second : c.toNat / 4096 % 64 < 64 := by omega
    have third : c.toNat / 64 % 64 < 64 := by omega
    have last : c.toNat % 64 < 64 := by omega
    simp only [List.cons_append, List.nil_append]
    rw [unitsOnto_four seen rest (by omega) (by omega) (secondOfFour_byte (by omega) bound)
      (isContinuation_byte third) (isContinuation_byte last)]
    rw [payload_byte second, payload_byte third, payload_byte last, lead, whole (by omega)]

theorem unitsOnto_encodeChars (seen : List (Option Char)) (text : List Char) :
    unitsOnto seen (encodeChars text) = seen.reverse ++ text.map some := by
  induction text generalizing seen with
  | nil => simp [encodeChars, unitsOnto]
  | cons c rest ih =>
    rw [encodeChars, List.flatMap_cons, unitsOnto_encodeChar, ← encodeChars, ih]
    simp

theorem units_encodeChars (text : List Char) : units (encodeChars text) = text.map some :=
  unitsOnto_encodeChars [] text

theorem decodeLossy_encode (text : String) : decodeLossy (encode text) = text := by
  have kept : (text.toList.map some).map (fun unit => unit.getD replacement) = text.toList := by
    rw [List.map_map]
    exact List.map_id text.toList
  rw [decodeLossy, encode, units_encodeChars, kept, String.ofList_toList]

theorem decode?_encodeChars (text : List Char) :
    decode? (encodeChars text) = some (String.ofList text) := by
  rw [decode?, units_encodeChars, Outcome.mapM_eq_some.mpr (List.map_id _), Option.map_some]

theorem decode?_encode (text : String) : decode? (encode text) = some text := by
  rw [encode, decode?_encodeChars, String.ofList_toList]

theorem encodeChars_injective {a b : List Char} (same : encodeChars a = encodeChars b) : a = b := by
  have texts := congrArg decode? same
  rw [decode?_encodeChars, decode?_encodeChars] at texts
  exact String.ofList_injective (Option.some.inj texts)

theorem encode_injective {a b : String} (same : encode a = encode b) : a = b := by
  have texts := congrArg decodeLossy same
  rwa [decodeLossy_encode, decodeLossy_encode] at texts

end ConfigExpr.Utf8
