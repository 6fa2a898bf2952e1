import ConfigExpr.Value.Coercion

/-!
Kinds of values, as parameters declare them. Parameters coerce: a scalar is accepted for a string or
a truth value, and a numeric text for a number. Containers are accepted only as what they are.
-/
namespace ConfigExpr

inductive Kind where
  | null
  | boolean
  | integer
  | float
  | string
  | array
  | object
  | any
deriving DecidableEq, Repr

namespace Kind

def name : Kind → String
  | .null => "null"
  | .boolean => "bool"
  | .integer => "int"
  | .float => "float"
  | .string => "string"
  | .array => "array"
  | .object => "object"
  | .any => "mixed"

/-- The name by which documents refer to a kind. -/
def tag : Kind → String
  | .null => "Null"
  | .boolean => "Boolean"
  | .integer => "Integer"
  | .float => "Float"
  | .string => "String"
  | .array => "Array"
  | .object => "Object"
  | .any => "Any"

def all : List Kind :=
  [.null, .boolean, .integer, .float, .string, .array, .object, .any]

def ofTag? (tag : String) : Option Kind :=
  all.find? fun kind => kind.tag == tag

def accepts : Kind → Value → Bool
  | .any, _ => true
  | .null, v => v.isNull
  | .string, v | .boolean, v => v.isScalar
  | .integer, v => v.integer?.isSome
  | .float, v => v.float?.isSome
  | .array, v => match v with | .array _ => true | _ => false
  | .object, v => match v with | .object _ => true | _ => false

end Kind

def Value.kind : Value → Kind
  | .null => .null
  | .bool _ => .boolean
  | .integer _ => .integer
  | .float _ => .float
  | .string _ | .bytes _ => .string
  | .array _ => .array
  | .object _ => .object

end ConfigExpr
