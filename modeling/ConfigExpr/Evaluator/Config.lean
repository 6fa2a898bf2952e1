import ConfigExpr.Evaluator.Allowlist
import ConfigExpr.Host.Function

/-!
Settings of an evaluator: how deep an expression may nest, the offset of local time, the functions
allowed at first and the current time. Settings that are legal but probably mistaken give warnings.
-/
namespace ConfigExpr

structure Config where
  maxDepth : Nat
  offset : Int
  allowed : List String
  now : Int
deriving Repr

namespace Config

def standard (now : Int) : Config :=
  ⟨100, 0, Allowlist.standard, now⟩

/-- Settings for reproducible tests: a shallow limit and the clock at 2014-12-08 09:38:35 UTC. -/
def testing : Config :=
  { standard 1418031515 with maxDepth := 20 }

def context (c : Config) : Context :=
  ⟨c.offset, c.now⟩

/-- An offset as sign, hours and minutes, and seconds unless they are zero. -/
def offsetText (offset : Int) : String :=
  let n := offset.natAbs
  let seconds := if n % 60 = 0 then [] else ':' :: Numeral.padded 2 (n % 60)
  String.ofList ((if offset < 0 then '-' else '+') :: Numeral.padded 2 (n / 3600) ++
    ':' :: Numeral.padded 2 (n / 60 % 60) ++ seconds)

/-- The largest offset that a place on Earth uses is fourteen hours. -/
def realOffset : Nat :=
  14 * 3600

/-- The later occurrences of names that are listed before; `seen` holds the names so far. -/
def repeated (seen : List String) : List String → List String
  | [] => []
  | name :: rest =>
    if seen.contains name then name :: repeated seen rest else repeated (name :: seen) rest

def warnings (c : Config) : List String :=
  (if 1000 < c.maxDepth then ["max_depth is very high (>1000) - may cause stack overflow"]
    else if c.maxDepth < 10 then
      ["max_depth is very low (<10) - may reject ordinary expressions"]
    else []) ++
  (if realOffset < c.offset.natAbs then
      ["timezone offset " ++ offsetText c.offset ++
        " is outside the range of real-world timezones"]
    else []) ++
  (if c.allowed.isEmpty then
      ["allowed_functions is empty - every function call will fail"]
    else []) ++
  (repeated [] c.allowed).map fun name =>
    "allowed_functions lists '" ++ name ++ "' more than once"

end Config

end ConfigExpr
