import ConfigExpr.Fields
import ConfigExpr.Number.Binary64

/-!
JSON documents. A number is an integer or a finite number of 64 bits; the fields of an object keep
the order in which they were written.
-/
namespace ConfigExpr

inductive JsonNumber where
  | integer (n : Int)
  | float (x : Binary64) (finite : x.isFinite = true)
deriving DecidableEq

inductive Json where
  | null
  | bool (b : Bool)
  | number (n : JsonNumber)
  | string (s : String)
  | array (items : List Json)
  | object (fields : List (String × Json))

namespace Json

instance : Inhabited Json := ⟨.null⟩

def integer (n : Int) : Json :=
  .number (.integer n)

/-- A number that has no JSON form becomes null. -/
def ofFloat (x : Binary64) : Json :=
  if finite : x.isFinite = true then .number (.float x finite) else .null

def isContainer : Json → Bool
  | .array _ | .object _ => true
  | _ => false

end Json

end ConfigExpr
