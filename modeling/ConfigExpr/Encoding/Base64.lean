/-!
Base 64 with the standard alphabet. Three bytes become four characters; a last group of one or two
bytes is padded with equals signs.
-/
namespace ConfigExpr.Base64

def alphabet : List Char :=
  "ABCDEFGHIJKLMNOPQRSTUVWXYZabcdefghijklmnopqrstuvwxyz0123456789+/".toList

/-- The character for the low six bits of a number. -/
def symbol (n : Nat) : Char :=
  alphabet.getD (n % 64) 'A'

def group (a b c : UInt8) : Nat :=
  a.toNat * 65536 + b.toNat * 256 + c.toNat

/-- Adds the characters for bytes to those already written, which are held last first. -/
def encodeOnto (written : List Char) : List UInt8 → List Char
  | [] => written.reverse
  | [a] =>
    let n := group a 0 0
    ('=' :: '=' :: symbol (n / 4096) :: symbol (n / 262144) :: written).reverse
  | [a, b] =>
    let n := group a b 0
    ('=' :: symbol (n / 64) :: symbol (n / 4096) :: symbol (n / 262144) :: written).reverse
  | a :: b :: c :: rest =>
    let n := group a b c
    encodeOnto
      (symbol n :: symbol (n / 64) :: symbol (n / 4096) :: symbol (n / 262144) :: written) rest

def encode (bytes : List UInt8) : String :=
  String.ofList (encodeOnto [] bytes)

end ConfigExpr.Base64
