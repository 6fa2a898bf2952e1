/-!
UTF-8. Bytes are cut into units: each unit is a character or a malformed part, where a malformed
part is as long as the bytes could still have begun a character. Reading text strictly needs every
unit to be a character; reading it leniently puts U+FFFD in place of each malformed part.
-/
namespace ConfigExpr.Utf8

def encodeChar (c : Char) : List UInt8 :=
  let n := c.toNat
  if n < 0x80 then [UInt8.ofNat n]
  else if n < 0x800 then [UInt8.ofNat (0xC0 + n / 64), UInt8.ofNat (0x80 + n % 64)]
  else if n < 0x10000 then
    [UInt8.ofNat (0xE0 + n / 4096), UInt8.ofNat (0x80 + n / 64 % 64), UInt8.ofNat (0x80 + n % 64)]
  else
    [UInt8.ofNat (0xF0 + n / 262144), UInt8.ofNat (0x80 + n / 4096 % 64),
      UInt8.ofNat (0x80 + n / 64 % 64), UInt8.ofNat (0x80 + n % 64)]

def encodeChars (text : List Char) : List UInt8 :=
  text.flatMap encodeChar

def encode (text : String) : List UInt8 :=
  encodeChars text.toList

theorem encodeChars_append (a b : List Char) :
    encodeChars (a ++ b) = encodeChars a ++ encodeChars b := by
  simp [encodeChars]

theorem encode_append (a b : String) : encode (a ++ b) = encode a ++ encode b := by
  simp [encode, encodeChars_append]

def isContinuation (b : UInt8) : Bool :=
  0x80 ≤ b && b ≤ 0xBF

/-- The second bytes that may follow the first byte of a character of three bytes. -/
def secondOfThree (lead second : UInt8) : Bool :=
  isContinuation second && !(lead == 0xE0 && second < 0xA0) && !(lead == 0xED && 0xA0 ≤ second)

/-- The second bytes that may follow the first byte of a character of four bytes. -/
def secondOfFour (lead second : UInt8) : Bool :=
  isContinuation second && !(lead == 0xF0 && second < 0x90) && !(lead == 0xF4 && 0x90 ≤ second)

def payload (b : UInt8) : Nat :=
  b.toNat % 64

/-- Adds the characters and malformed parts (`none`) of a byte string to those already seen, which
are held last first. -/
def unitsOnto (seen : List (Option Char)) : List UInt8 → List (Option Char)
  | [] => seen.reverse
  | a :: rest =>
    if a < 0x80 then unitsOnto (some (Char.ofNat a.toNat) :: seen) rest
    else if 0xC2 ≤ a && a ≤ 0xDF then
      match rest with
      | [] => (none :: seen).reverse
      | b :: afterB =>
        if isContinuation b then
          unitsOnto (some (Char.ofNat ((a.toNat - 0xC0) * 64 + payload b)) :: seen) afterB
        else unitsOnto (none :: seen) (b :: afterB)
    else if 0xE0 ≤ a && a ≤ 0xEF then
      match rest with
      | [] => (none :: seen).reverse
      | b :: afterB =>
        if secondOfThree a b then
          match afterB with
          | [] => (none :: seen).reverse
          | c :: afterC =>
            if isContinuation c then
              unitsOnto (some (Char.ofNat
                ((a.toNat - 0xE0) * 4096 + payload b * 64 + payload c)) :: seen) afterC
            else unitsOnto (none :: seen) (c :: afterC)
        else unitsOnto (none :: seen) (b :: afterB)
    else if 0xF0 ≤ a && a ≤ 0xF4 then
      match rest with
      | [] => (none :: seen).reverse
      | b :: afterB =>
        if secondOfFour a b then
          match afterB with
          | [] => (none :: seen).reverse
          | c :: afterC =>
            if isContinuation c then
              match afterC with
              | [] => (none :: seen).reverse
              | d :: afterD =>
                if isContinuation d then
                  unitsOnto (some (Char.ofNat ((a.toNat - 0xF0) * 262144 + payload b * 4096 +
                    payload c * 64 + payload d)) :: seen) afterD
                else unitsOnto (none :: seen) (d :: afterD)
            else unitsOnto (none :: seen) (c :: afterC)
        else unitsOnto (none :: seen) (b :: afterB)
    else unitsOnto (none :: seen) rest

/-- The characters and malformed parts (`none`) of a byte string, in order. -/
def units (bytes : List UInt8) : List (Option Char) :=
  unitsOnto [] bytes

def replacement : Char :=
  '\uFFFD'

/-- The text with U+FFFD in place of each malformed part. -/
def decodeLossy (bytes : List UInt8) : String :=
  String.ofList ((units bytes).map fun unit => unit.getD replacement)

def decode? (bytes : List UInt8) : Option String :=
  ((units bytes).mapM id).map String.ofList

end ConfigExpr.Utf8
