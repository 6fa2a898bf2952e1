import ConfigExpr.Value.FloatText
import ConfigExpr.Value.NumericPrefix

/-!
Coercions of scalars. Every scalar has a text and bytes; numbers, truth values, null and texts that
start with a number have an integer and a float. Containers coerce to nothing.
-/
namespace ConfigExpr.Value

def text? : Value → Option String
  | .null => some ""
  | .bool b => some (if b then "1" else "")
  | .integer n => some (Json.integerText n.toInt)
  | .float x => some x.text
  | .string s => some s
  | .bytes b => some (Utf8.decodeLossy b)
  | .array _ | .object _ => none

/-- The bytes of the text, or raw bytes as they are. -/
def bytes? : Value → Option (List UInt8)
  | .bytes b => some b
  | v => v.text?.map Utf8.encode

/-- The integer of a number, whose fraction is dropped and whose magnitude is clamped. -/
def numberToInteger : Value → Int64
  | .integer n => n
  | .float x => x.toInt64
  | _ => 0

def numberToFloat : Value → Binary64
  | .integer n => .ofInt n.toInt
  | .float x => x
  | _ => .zero false

def textToInteger? (s : String) : Option Int64 :=
  (NumericPrefix.parse? s).map numberToInteger

def textToFloat? (s : String) : Option Binary64 :=
  (NumericPrefix.parse? s).map numberToFloat

def integer? : Value → Option Int64
  | .null => some 0
  | .bool b => some (if b then 1 else 0)
  | .integer n => some n
  | .float x => if x.isFinite then some x.toInt64 else none
  | .string s => textToInteger? s
  | .bytes b => textToInteger? (Utf8.decodeLossy b)
  | .array _ | .object _ => none

def float? : Value → Option Binary64
  | .null => some (.zero false)
  | .bool b => some (.ofInt (if b then 1 else 0))
  | .integer n => some (.ofInt n.toInt)
  | .float x => some x
  | .string s => textToFloat? s
  | .bytes b => textToFloat? (Utf8.decodeLossy b)
  | .array _ | .object _ => none

end ConfigExpr.Value
