import ConfigExpr.Digest.Algorithm
import ConfigExpr.Encoding.Hex
import ConfigExpr.Standard.Arguments

/-!
Functions that digest text: plain, by the name of an algorithm, and under a key. Each gives
hexadecimal digits, or raw bytes when asked for.
-/
namespace ConfigExpr.Standard
open Digest

def digestValue (bytes : List UInt8) (binary : Bool) : Value :=
  if binary then .bytes bytes else .string (Hex.encode bytes)

def namedAlgorithm (name algorithm : String) : Except CallFailure Algorithm :=
  match Algorithm.ofName? algorithm with
  | some algorithm => .ok algorithm
  | none => .error (.failed name "Argument #1 ($algo) must be a valid hashing algorithm")

def plainDigest (algorithm : Algorithm) (documentation : String) : HostFunction where
  signature := .fixed algorithm.name
    [.required "string" .string, .allowed "binary" .boolean] .string
  documentation := documentation
  isPure := true
  body args _ := do
    let data ← bytesArgument algorithm.name args 0 "string"
    return digestValue (algorithm.digest data) (flagArgument args 1)

def md5 : HostFunction :=
  plainDigest .md5
    "Calculates the MD5 hash of a string as 32 hex characters, or 16 raw bytes when binary is true."

def sha1 : HostFunction :=
  plainDigest .sha1
    ("Calculates the SHA-1 hash of a string as 40 hex characters, " ++
      "or 20 raw bytes when binary is true.")

def hash : HostFunction where
  signature := .fixed "hash"
    [.required "algo" .string, .required "data" .string, .allowed "binary" .boolean] .string
  documentation := "Generates a hash value using md5, sha1, sha224, sha256, sha384 or sha512."
  isPure := true
  body args _ := do
    let algorithm ← namedAlgorithm "hash" (← textArgument "hash" args 0 "algo")
    let data ← bytesArgument "hash" args 1 "data"
    return digestValue (algorithm.digest data) (flagArgument args 2)

def hashHmac : HostFunction where
  signature := .fixed "hash_hmac"
    [.required "algo" .string, .required "data" .string, .required "key" .string,
      .allowed "binary" .boolean] .string
  documentation := "Generates a keyed hash value using the HMAC method."
  isPure := true
  body args _ := do
    let algorithm ← namedAlgorithm "hash_hmac" (← textArgument "hash_hmac" args 0 "algo")
    let data ← bytesArgument "hash_hmac" args 1 "data"
    let key ← bytesArgument "hash_hmac" args 2 "key"
    return digestValue (algorithm.keyed key data) (flagArgument args 3)

end ConfigExpr.Standard
