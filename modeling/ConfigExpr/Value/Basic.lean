import ConfigExpr.Json.Printer
import ConfigExpr.Text.Utf8

/-!
The values that expressions are made of and evaluate to. Text and raw bytes are both strings to a
user; bytes hold what is not valid UTF-8, such as a raw digest, until it is encoded or printed.
-/
namespace ConfigExpr

inductive Value where
  | null
  | bool (b : Bool)
  | integer (n : Int64)
  | float (x : Binary64)
  | string (s : String)
  | bytes (b : List UInt8)
  | array (items : List Value)
  | object (fields : List (String × Value))

namespace Value

instance : Inhabited Value := ⟨.null⟩

def isNull : Value → Bool
  | .null => true
  | _ => false

def isScalar : Value → Bool
  | .array _ | .object _ => false
  | _ => true

/-- Null, false, zero, the texts without characters and `0`, and containers without content. -/
def isEmpty : Value → Bool
  | .null => true
  | .bool b => !b
  | .integer n => n == 0
  | .float x => x.isZero
  | .string s => s == "" || s == "0"
  | .bytes b => b == [] || b == [48]
  | .array items => items.isEmpty
  | .object fields => fields.isEmpty

def isTruthy (v : Value) : Bool :=
  !v.isEmpty

def typeName : Value → String
  | .null => "NULL"
  | .bool _ => "boolean"
  | .integer _ => "integer"
  | .float _ => "double"
  | .string _ | .bytes _ => "string"
  | .array _ => "array"
  | .object _ => "object"

/-- An integer if the number is one of 64 bits, and else a float. -/
def ofNumber : JsonNumber → Value
  | .integer n =>
    if -2 ^ 63 ≤ n && n < 2 ^ 63 then .integer (Int64.ofInt n) else .float (.ofInt n)
  | .float x _ => .float x

mutual

def ofJson : Json → Value
  | .null => .null
  | .bool b => .bool b
  | .number n => ofNumber n
  | .string s => .string s
  | .array items => .array (ofJsonItems items)
  | .object fields => .object (ofJsonFields fields)

def ofJsonItems : List Json → List Value
  | [] => []
  | item :: rest => ofJson item :: ofJsonItems rest

def ofJsonFields : List (String × Json) → List (String × Value)
  | [] => []
  | (name, item) :: rest => (name, ofJson item) :: ofJsonFields rest

end

mutual

/-- The document that shows a value. Bytes become text, with U+FFFD where they are malformed, and a
number that is not finite becomes null. -/
def toJson : Value → Json
  | .null => .null
  | .bool b => .bool b
  | .integer n => .integer n.toInt
  | .float x => .ofFloat x
  | .string s => .string s
  | .bytes b => .string (Utf8.decodeLossy b)
  | .array items => .array (toJsonItems items)
  | .object fields => .object (toJsonFields fields)

def toJsonItems : List Value → List Json
  | [] => []
  | item :: rest => toJson item :: toJsonItems rest

def toJsonFields : List (String × Value) → List (String × Json)
  | [] => []
  | (name, item) :: rest => (name, toJson item) :: toJsonFields rest

end

def canonicalText (v : Value) : String :=
  v.toJson.compact

mutual

/-- The compact JSON text of a value, written without building the document. -/
def compact : Value → String
  | .null => "null"
  | .bool b => if b then "true" else "false"
  | .integer n => Json.integerText n.toInt
  | .float x => if x.isFinite then Json.floatText x else "null"
  | .string s => Json.quote s
  | .bytes b => Json.quote (Utf8.decodeLossy b)
  | .array items => "[" ++ compactItems items ++ "]"
  | .object fields => "\x7b" ++ compactFields fields ++ "\x7d"

def compactItems : List Value → String
  | [] => ""
  | [item] => compact item
  | item :: rest => compact item ++ "," ++ compactItems rest

def compactFields : List (String × Value) → String
  | [] => ""
  | [(name, item)] => Json.quote name ++ ":" ++ compact item
  | (name, item) :: rest => Json.quote name ++ ":" ++ compact item ++ "," ++ compactFields rest

end

end Value

end ConfigExpr
