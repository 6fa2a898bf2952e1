/-!
The encoding of form fields. A space becomes a plus sign; letters, digits, hyphen, underscore and
point stay; any other byte becomes a percent sign and two upper-case hexadecimal digits.
-/
namespace ConfigExpr.Form

def isPlain (b : UInt8) : Bool :=
  (48 ≤ b && b ≤ 57) || (65 ≤ b && b ≤ 90) || (97 ≤ b && b ≤ 122) ||
    b == 45 || b == 95 || b == 46

def hexDigit (n : Nat) : Char :=
  (Nat.digitChar n).toUpper

def encodeByte (b : UInt8) : List Char :=
  if b = 32 then ['+']
  else if isPlain b then [Char.ofNat b.toNat]
  else ['%', hexDigit (b.toNat / 16), hexDigit (b.toNat % 16)]

def encodeChars (bytes : List UInt8) : List Char :=
  bytes.flatMap encodeByte

def encode (bytes : List UInt8) : String :=
  String.ofList (encodeChars bytes)

theorem encodeChars_append (a b : List UInt8) :
    encodeChars (a ++ b) = encodeChars a ++ encodeChars b := by
  simp [encodeChars]

end ConfigExpr.Form
