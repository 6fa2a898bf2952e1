import ConfigExpr.Digest.Padding

/-!
SHA-1: eighty steps on five words of 32 bits for each block of 64 bytes, with
big-endian words.
-/
namespace ConfigExpr.Digest.Sha1

structure State where
  a : UInt32
  b : UInt32
  c : UInt32
  d : UInt32
  e : UInt32

def initial : State :=
  ⟨0x67452301, 0xefcdab89, 0x98badcfe, 0x10325476, 0xc3d2e1f0⟩

def extend (words : Array UInt32) (_ : Nat) : Array UInt32 :=
  let before (n : Nat) := words.getD (words.size - n) 0
  words.push (rotateLeft (before 3 ^^^ before 8 ^^^ before 14 ^^^ before 16) 1)

def schedule (block : List UInt8) : Array UInt32 :=
  (List.range 64).foldl extend
    ((blocks 4 block).map fun word => UInt32.ofNat (ofBigEndian word)).toArray

def mix (step : Nat) (s : State) : UInt32 × UInt32 :=
  match step / 20 with
  | 0 => ((s.b &&& s.c) ||| (~~~s.b &&& s.d), 0x5a827999)
  | 1 => (s.b ^^^ s.c ^^^ s.d, 0x6ed9eba1)
  | 2 => ((s.b &&& s.c) ||| (s.b &&& s.d) ||| (s.c &&& s.d), 0x8f1bbcdc)
  | _ => (s.b ^^^ s.c ^^^ s.d, 0xca62c1d6)

def advance (words : Array UInt32) (s : State) (step : Nat) : State :=
  let (mixed, constant) := mix step s
  let sum := rotateLeft s.a 5 + mixed + s.e + constant + words.getD step 0
  ⟨sum, s.a, rotateLeft s.b 30, s.c, s.d⟩

def compress (s : State) (block : List UInt8) : State :=
  let t := (List.range 80).foldl (advance (schedule block)) s
  ⟨s.a + t.a, s.b + t.b, s.c + t.c, s.d + t.d, s.e + t.e⟩

def digest (message : List UInt8) : List UInt8 :=
  let s := (blocks 64 (pad 64 8 bigEndian message)).foldl compress initial
  [s.a, s.b, s.c, s.d, s.e].flatMap fun word => bigEndian 4 word.toNat

end ConfigExpr.Digest.Sha1
