import ConfigExpr.Digest.Md5
import ConfigExpr.Digest.Sha1
import ConfigExpr.Digest.Sha2

/-!
Digest algorithms by name, and keyed digests (HMAC) over any of them.
-/
namespace ConfigExpr.Digest

inductive Algorithm where
  | md5
  | sha1
  | sha224
  | sha256
  | sha384
  | sha512
deriving DecidableEq, Repr

namespace Algorithm

def all : List Algorithm :=
  [.md5, .sha1, .sha224, .sha256, .sha384, .sha512]

def name : Algorithm → String
  | .md5 => "md5"
  | .sha1 => "sha1"
  | .sha224 => "sha224"
  | .sha256 => "sha256"
  | .sha384 => "sha384"
  | .sha512 => "sha512"

/-- The algorithm of a name, whose ASCII letters may be of either case. -/
def ofName? (name : String) : Option Algorithm :=
  all.find? fun algorithm => algorithm.name.toList == name.toList.map Char.toLower

def digest : Algorithm → List UInt8 → List UInt8
  | .md5 => Md5.digest
  | .sha1 => Sha1.digest
  | .sha224 => Sha2.sha224
  | .sha256 => Sha2.sha256
  | .sha384 => Sha2.sha384
  | .sha512 => Sha2.sha512

def blockSize : Algorithm → Nat
  | .md5 | .sha1 | .sha224 | .sha256 => 64
  | .sha384 | .sha512 => 128

/-- A key as long as a block: longer ones are digested, shorter ones filled with zeros. -/
def blockKey (algorithm : Algorithm) (key : List UInt8) : List UInt8 :=
  let short := if algorithm.blockSize < key.length then algorithm.digest key else key
  short ++ List.replicate (algorithm.blockSize - short.length) 0

def keyed (algorithm : Algorithm) (key message : List UInt8) : List UInt8 :=
  let key := algorithm.blockKey key
  let inner := algorithm.digest (key.map (· ^^^ 0x36) ++ message)
  algorithm.digest (key.map (· ^^^ 0x5c) ++ inner)

end Algorithm

end ConfigExpr.Digest
