import ConfigExpr.Number.Power

/-!
What the block digests share: a message is padded with a one bit, zero bits and its length in bits
to a whole number of blocks, and blocks are read as words.
-/
namespace ConfigExpr.Digest

/-- The bytes of a number, least significant first. -/
def littleEndian (count n : Nat) : List UInt8 :=
  (List.range count).map fun i => UInt8.ofNat (n / 256 ^ i)

def bigEndian (count n : Nat) : List UInt8 :=
  (littleEndian count n).reverse

/-- The number whose bytes are given, most significant first. -/
def ofBigEndian (bytes : List UInt8) : Nat :=
  bytes.foldl (fun n b => n * 256 + b.toNat) 0

def ofLittleEndian (bytes : List UInt8) : Nat :=
  ofBigEndian bytes.reverse

/-- The padded message, for a block size and a length field of so many bytes. -/
def pad (block field : Nat) (encode : Nat → Nat → List UInt8) (message : List UInt8) :
    List UInt8 :=
  let used := (message.length + 1 + field) % block
  let zeros := if used = 0 then 0 else block - used
  message ++ 0x80 :: List.replicate zeros 0 ++ encode field (8 * message.length)

/-- The first `count` pieces of the given size. -/
def pieces (size : Nat) : (count : Nat) → List UInt8 → List (List UInt8)
  | 0, _ => []
  | count + 1, bytes => bytes.take size :: pieces size count (bytes.drop size)

def blocks (size : Nat) (bytes : List UInt8) : List (List UInt8) :=
  pieces size (bytes.length / size) bytes

def rotateLeft (x n : UInt32) : UInt32 :=
  (x <<< n) ||| (x >>> (32 - n))

end ConfigExpr.Digest
