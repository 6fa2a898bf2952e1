import ConfigExpr.Host.Function
import ConfigExpr.Text.Hidden

/-!
A catalogue in one line: the names of its functions in ascending order, in quotes. Quotes and
backslashes in a name are escaped, and so are characters that would not show by themselves.
-/
namespace ConfigExpr.Catalogue
open Text

def shownChar (c : Char) : String :=
  if c = '"' then "\\\""
  else if c = '\\' then "\\\\"
  else if c = '\n' then "\\n"
  else if c = '\r' then "\\r"
  else if c = '\t' then "\\t"
  else if c = '\x00' then "\\0"
  else if isHidden c then
    "\\u\x7b" ++ String.ofList (Nat.toDigits 16 c.toNat) ++ "\x7d"
  else String.singleton c

def shownName (name : String) : String :=
  "\"" ++ String.join (name.toList.map shownChar) ++ "\""

def summary (c : Catalogue) : String :=
  "FunctionRegistry \x7b functions: [" ++ String.intercalate ", " (c.names.map shownName) ++
    "] \x7d"

end ConfigExpr.Catalogue
