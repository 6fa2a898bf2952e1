/-!
Bytes as pairs of lower-case hexadecimal digits.
-/
namespace ConfigExpr.Hex

def digit (n : Nat) : Char :=
  Nat.digitChar n

def encodeByte (b : UInt8) : List Char :=
  [digit (b.toNat / 16), digit (b.toNat % 16)]

def encode (bytes : List UInt8) : String :=
  String.ofList (bytes.flatMap encodeByte)

end ConfigExpr.Hex
