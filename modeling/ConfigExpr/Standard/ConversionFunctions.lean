import ConfigExpr.Standard.Arguments
import ConfigExpr.Text.Radix

/-!
Functions that convert values and name their types.
-/
namespace ConfigExpr.Standard
open Text

/-- The integer of a value: containers count as whether they hold anything, and texts are read in
the base. -/
def integerIn (base : Nat) : Value → Int64
  | .array items => if items.isEmpty then 0 else 1
  | .object fields => if fields.isEmpty then 0 else 1
  | v =>
    if base = 10 then v.integer?.getD 0
    else
      match v with
      | .string s => Radix.parse base s
      | .bytes b => Radix.parse base (Utf8.decodeLossy b)
      | v => v.integer?.getD 0

def integerValue : HostFunction where
  signature := .fixed "intval" [.required "value" .any, .allowed "base" .integer] .integer
  documentation :=
    "Returns the integer value of a variable. Strings are parsed in the given base " ++
      "(default 10, 0 detects 0x, 0b and 0 prefixes); unparseable strings give 0."
  isPure := true
  body args _ := do
    let base := ((← integerArgument? "intval" args 1 "base").getD 10).toInt
    if base ≠ 0 ∧ (base < 2 ∨ 36 < base) then
      throw (.failed "intval" "Argument #2 ($base) must be between 2 and 36 (inclusive), or 0")
    return .integer (integerIn base.toNat (argument args 0))

def stringValue : HostFunction where
  signature := .fixed "strval" [.required "value" .any] .string
  documentation := "Returns the string value of a scalar."
  isPure := true
  body args _ :=
    match argument args 0 with
    | .bytes b => return .bytes b
    | v => do
      let text ← joinedText "strval" v
      return .string text

def typeName : HostFunction where
  signature := .fixed "gettype" [.required "value" .any] .string
  documentation :=
    "Returns the type name of a value: boolean, integer, double, string, array, object or NULL."
  isPure := true
  body args _ := return .string (argument args 0).typeName

end ConfigExpr.Standard
