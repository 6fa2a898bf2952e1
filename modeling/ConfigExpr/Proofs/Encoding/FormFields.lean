import ConfigExpr.Proofs.Text.Utf8Encoding
import ConfigExpr.Standard.TextFunctions
import ConfigExpr.Text.Digit

/-!
Form fields read back. An encoded text is made of kept characters, plus signs and escapes, each of
which stands for one byte, so that decoding goes along the text piece by piece. It is the same
encoding when a text is split at its spaces and each segment is escaped by itself.
-/
namespace ConfigExpr.Form
open Text

/-- A letter, a digit or one of the three marks that stay. -/
def isKept (c : Char) : Bool :=
  c.isAlphanum || c == '-' || c == '_' || c == '.'

def isUpperHex (c : Char) : Bool :=
  c.isDigit || 'A' ≤ c && c ≤ 'F'

inductive IsEncoded : List Char → Prop where
  | nil : IsEncoded []
  | kept {c : Char} {rest : List Char} (keeps : isKept c = true) (others : IsEncoded rest) :
      IsEncoded (c :: rest)
  | plus {rest : List Char} (others : IsEncoded rest) : IsEncoded ('+' :: rest)
  | escape {high low : Char} {rest : List Char} (first : isUpperHex high = true)
      (second : isUpperHex low = true) (others : IsEncoded rest) :
      IsEncoded ('%' :: high :: low :: rest)

/-- Reads a plus sign as a space, an escape as its byte and a kept character as itself. -/
def decode? : List Char → Option (List UInt8)
  | [] => some []
  | '%' :: high :: low :: rest => do
    let first ← digitIn? 16 high
    let second ← digitIn? 16 low
    (UInt8.ofNat (16 * first + second) :: ·) <$> decode? rest
  | c :: rest =>
    if c = '+' then (32 :: ·) <$> decode? rest
    else if isKept c then (UInt8.ofNat c.toNat :: ·) <$> decode? rest
    else none

section Byte
variable {n : Nat} {b : UInt8} {rest : List Char}

theorem digitIn?_hexDigit (small : n < 16) : digitIn? 16 (hexDigit n) = some n := by
  revert n
  decide

theorem isUpperHex_hexDigit (small : n < 16) : isUpperHex (hexDigit n) = true := by
  revert n
  decide

theorem isPlain_eq_isKept (b : UInt8) : isPlain b = isKept (Char.ofNat b.toNat) := by
  have all : ∀ n < 256, isPlain (UInt8.ofNat n) = isKept (Char.ofNat n) := by
    decide +kernel
  have byte := all b.toNat b.toNat_lt
  rwa [UInt8.ofNat_toNat] at byte

theorem ofNat_toNat_char (b : UInt8) : UInt8.ofNat (Char.ofNat b.toNat).toNat = b := by
  have small := b.toNat_lt
  have valid : b.toNat.isValidChar := .inl (by omega)
  rw [Utf8.toNat_char valid, UInt8.ofNat_toNat]

theorem decode?_plus : decode? ('+' :: rest) = (32 :: ·) <$> decode? rest := by
  rw [decode?, if_pos rfl]
  intro high low behind begins
  exact absurd begins (by decide)

theorem decode?_kept {c : Char} (kept : isKept c = true) :
    decode? (c :: rest) = (UInt8.ofNat c.toNat :: ·) <$> decode? rest := by
  have noPlus : c ≠ '+' := by
    rintro rfl
    exact absurd kept (by decide)
  rw [decode?, if_neg noPlus, if_pos kept]
  rintro high low behind rfl
  exact absurd kept (by decide)

theorem decode?_escape {first second : Nat} (high : first < 16) (low : second < 16) :
    decode? ('%' :: hexDigit first :: hexDigit second :: rest) =
      (UInt8.ofNat (16 * first + second) :: ·) <$> decode? rest := by
  rw [decode?, digitIn?_hexDigit high, digitIn?_hexDigit low]
  rfl

theorem decode?_encodeByte (b : UInt8) (rest : List Char) :
    decode? (encodeByte b ++ rest) = (b :: ·) <$> decode? rest := by
  unfold encodeByte
  split
  next space => rw [space, List.singleton_append, decode?_plus]
  next =>
    split
    next plain =>
      rw [isPlain_eq_isKept] at plain
      rw [List.singleton_append, decode?_kept plain, ofNat_toNat_char]
    next =>
      have small := b.toNat_lt
      have whole : 16 * (b.toNat / 16) + b.toNat % 16 = b.toNat := Nat.div_add_mod _ _
      rw [List.cons_append, List.cons_append, List.singleton_append,
        decode?_escape (by omega) (Nat.mod_lt _ (by omega)), whole, UInt8.ofNat_toNat]

theorem isEncoded_encodeByte (b : UInt8) (others : IsEncoded rest) :
    IsEncoded (encodeByte b ++ rest) := by
  unfold encodeByte
  split
  next => exact .plus others
  next =>
    split
    next plain => exact .kept (isPlain_eq_isKept b ▸ plain) others
    next =>
      have small := b.toNat_lt
      exact .escape (isUpperHex_hexDigit (by omega))
        (isUpperHex_hexDigit (Nat.mod_lt _ (by omega))) others

end Byte

theorem decode?_encodeChars (bytes : List UInt8) : decode? (encodeChars bytes) = some bytes := by
  induction bytes with
  | nil => rfl
  | cons b bytes ih =>
    rw [encodeChars, List.flatMap_cons, decode?_encodeByte, ← encodeChars, ih]
    rfl

theorem isEncoded_encodeChars (bytes : List UInt8) : IsEncoded (encodeChars bytes) := by
  induction bytes with
  | nil => exact .nil
  | cons b bytes ih => exact isEncoded_encodeByte b ih

theorem toList_encode (bytes : List UInt8) : (encode bytes).toList = encodeChars bytes :=
  String.toList_ofList

theorem encode_append (a b : List UInt8) : encode (a ++ b) = encode a ++ encode b := by
  rw [encode, encodeChars_append, String.ofList_append]
  rfl

theorem encode_injective : Function.Injective encode := fun a b same => by
  have read := decode?_encodeChars a
  rw [← toList_encode, same, toList_encode, decode?_encodeChars] at read
  exact (Option.some.inj read).symm

structure EscapesBytes (escape : List UInt8 → List Char) : Prop where
  append a b : escape (a ++ b) = escape a ++ escape b
  kept b : isKept (Char.ofNat b.toNat) = true → escape [b] = [Char.ofNat b.toNat]
  other b : isKept (Char.ofNat b.toNat) = false →
    escape [b] = ['%', hexDigit (b.toNat / 16), hexDigit (b.toNat % 16)]

namespace EscapesBytes
variable {escape : List UInt8 → List Char}

theorem nil (escapes : EscapesBytes escape) : escape [] = [] :=
  List.self_eq_append_right.mp (escapes.append [] [])

theorem singleton (escapes : EscapesBytes escape) {b : UInt8} (noSpace : b ≠ 32) :
    escape [b] = encodeByte b := by
  rw [encodeByte, if_neg noSpace, isPlain_eq_isKept]
  split
  next kept => exact escapes.kept b kept
  next other => exact escapes.other b (Bool.eq_false_iff.mpr other)

theorem intercalate_splitOn (escapes : EscapesBytes escape) (bytes : List UInt8) :
    ['+'].intercalate ((bytes.splitOn 32).map escape) = encodeChars bytes := by
  induction bytes with
  | nil =>
    rw [List.splitOn_nil, List.map_singleton, List.intercalate_singleton, escapes.nil]
    rfl
  | cons b bytes ih =>
    obtain ⟨segment, others, split⟩ := List.exists_cons_of_ne_nil (List.splitOn_ne_nil 32 bytes)
    rw [split, List.map_cons] at ih
    rw [List.splitOn_cons_eq_if_modifyHead, split, encodeChars, List.flatMap_cons, ← encodeChars,
      ← ih]
    by_cases space : b = 32
    · rw [if_pos (beq_iff_eq.mpr space), List.map_cons, List.map_cons,
        List.intercalate_cons_cons, escapes.nil, encodeByte, if_pos space]
      rfl
    · have apart : escape (b :: segment) = encodeByte b ++ escape segment := by
        rw [← escapes.singleton space, ← escapes.append, List.singleton_append]
      rw [if_neg (mt beq_iff_eq.mp space), List.modifyHead_cons, List.map_cons, apart]
      cases others with
      | nil => simp only [List.map_nil, List.intercalate_singleton]
      | cons next others =>
        simp only [List.map_cons, List.intercalate_cons_cons, List.append_assoc]

end EscapesBytes

theorem urlEncode_call {v : Value} {bytes : List UInt8} (held : v.bytes? = some bytes)
    (context : Context) :
    Standard.urlEncode.call [v] context = .ok (.string (encode bytes)) := by
  cases v with
  | array items | object fields => cases held
  | null | bool b | integer n | float x | string s | bytes b =>
    cases held
    rfl

/-- Encoding goes byte by byte, whether or not the text is split at its spaces before: two texts in
a row are encoded as each by itself. Only kept characters, plus signs and escapes come out, and
decoding them gives the bytes back, so that no two texts are encoded alike. -/
theorem form_fields_are_read_back {escape : List UInt8 → List Char} (escapes : EscapesBytes escape)
    (a b : List UInt8) (context : Context) :
    ∃ x y : String,
      (∀ v : Value, v.bytes? = some a →
        Standard.urlEncode.call [v] context = .ok (.string x)) ∧
      (∀ v : Value, v.bytes? = some b →
        Standard.urlEncode.call [v] context = .ok (.string y)) ∧
      (∀ v : Value, v.bytes? = some (a ++ b) →
        Standard.urlEncode.call [v] context = .ok (.string (x ++ y))) ∧
      x.toList = ['+'].intercalate ((a.splitOn 32).map escape) ∧
      IsEncoded x.toList ∧ decode? x.toList = some a ∧ (x = y ↔ a = b) := by
  refine ⟨encode a, encode b, fun v held => urlEncode_call held context,
    fun v held => urlEncode_call held context, fun v held => ?_, ?_, ?_, ?_,
    encode_injective.eq_iff⟩
  · rw [urlEncode_call held, encode_append]
  · rw [toList_encode, escapes.intercalate_splitOn]
  · rw [toList_encode]
    exact isEncoded_encodeChars a
  · rw [toList_encode]
    exact decode?_encodeChars a

def escaped (bytes : List UInt8) : List Char :=
  bytes.flatMap fun b =>
    if isKept (Char.ofNat b.toNat) then [Char.ofNat b.toNat]
    else ['%', hexDigit (b.toNat / 16), hexDigit (b.toNat % 16)]

theorem escapesBytes_escaped : EscapesBytes escaped where
  append a b := List.flatMap_append
  kept b kept := by rw [escaped, List.flatMap_singleton, if_pos kept]
  other b other := by rw [escaped, List.flatMap_singleton, if_neg (Bool.eq_false_iff.mp other)]

theorem form_fields_are_read_back_spaces :
    EscapesBytes escaped ∧
      Standard.urlEncode.call [.bytes [32, 32, 43, 255]] ⟨0, 0⟩ = .ok (.string "++%2B%FF") ∧
      Standard.urlEncode.call [.string "%a "] ⟨0, 0⟩ = .ok (.string "%25a+") ∧
      Standard.urlEncode.call [.bytes [32, 32, 43, 255, 37, 97, 32]] ⟨0, 0⟩ =
        .ok (.string ("++%2B%FF" ++ "%25a+")) ∧
      decode? "++%2B%FF".toList = some [32, 32, 43, 255] := by
  obtain ⟨x, y, first, second, whole, -, -, read, -⟩ :=
    form_fields_are_read_back escapesBytes_escaped [32, 32, 43, 255] [37, 97, 32] ⟨0, 0⟩
  have raw : Standard.urlEncode.call [.bytes [32, 32, 43, 255]] ⟨0, 0⟩ =
      .ok (.string "++%2B%FF") := by rfl
  have text : Standard.urlEncode.call [.string "%a "] ⟨0, 0⟩ = .ok (.string "%25a+") := by rfl
  obtain rfl := Value.string.inj (Except.ok.inj (raw.symm.trans (first (.bytes _) rfl)))
  obtain rfl := Value.string.inj (Except.ok.inj (text.symm.trans (second (.string _) rfl)))
  exact ⟨escapesBytes_escaped, raw, text, whole (.bytes _) rfl, read⟩

end ConfigExpr.Form
