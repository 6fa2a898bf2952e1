import ConfigExpr.Json.Basic
import ConfigExpr.Number.DecimalText

/-!
The text of JSON documents, compact and indented. Only quotes, backslashes and control characters
are escaped. A float has the fewest digits that read back: positional with at least one decimal for
magnitudes from 1e-5 up to 1e16, and with a signed exponent outside that range.
-/
namespace ConfigExpr.Json

def hexDigits (width n : Nat) : List Char :=
  Numeral.padZeros width (Nat.toDigits 16 n)

def escapeChar (c : Char) : String :=
  if c = '"' then "\\\""
  else if c = '\\' then "\\\\"
  else if c = '\x08' then "\\b"
  else if c = '\x0c' then "\\f"
  else if c = '\n' then "\\n"
  else if c = '\r' then "\\r"
  else if c = '\t' then "\\t"
  else if c.toNat < 0x20 then "\\u" ++ String.ofList (hexDigits 4 c.toNat)
  else String.singleton c

def quote (text : String) : String :=
  "\"" ++ String.join (text.toList.map escapeChar) ++ "\""

def integerText (n : Int) : String :=
  String.ofList (Numeral.ofInt n)

/-- The digits of a decimal of `count` digits whose first has the exponent `leading`, written
positionally with at least one decimal. -/
def positional (digits : List Char) (leading : Int) : List Char :=
  if leading < 0 then
    '0' :: '.' :: (List.replicate (leading.natAbs - 1) '0' ++ digits)
  else
    let whole := leading.toNat + 1
    let filled := digits ++ List.replicate (whole - digits.length) '0'
    filled.take whole ++ '.' :: (if digits.length ≤ whole then ['0'] else filled.drop whole)

def withExponent (digits : List Char) (leading : Int) : List Char :=
  let mantissa := DecimalText.withPoint digits (digits.length - 1)
  mantissa ++ 'e' :: (if leading < 0 then '-' else '+') :: Numeral.ofNat leading.natAbs

def floatText (x : Binary64) : String :=
  let d := x.shortest
  let digits := Numeral.ofNat d.digits
  let leading := d.leading digits.length
  let magnitude :=
    if -5 ≤ leading && leading < 16 then positional digits leading
    else withExponent digits leading
  String.ofList (if x.isNegative then '-' :: magnitude else magnitude)

def numberText : JsonNumber → String
  | .integer n => integerText n
  | .float x _ => floatText x

mutual

def compact : Json → String
  | .null => "null"
  | .bool b => if b then "true" else "false"
  | .number n => numberText n
  | .string s => quote s
  | .array items => "[" ++ compactItems items ++ "]"
  | .object fields => "\x7b" ++ compactFields fields ++ "\x7d"

def compactItems : List Json → String
  | [] => ""
  | [item] => compact item
  | item :: rest => compact item ++ "," ++ compactItems rest

def compactFields : List (String × Json) → String
  | [] => ""
  | [(name, item)] => quote name ++ ":" ++ compact item
  | (name, item) :: rest => quote name ++ ":" ++ compact item ++ "," ++ compactFields rest

end

def lineBreak (depth : Nat) : String :=
  "\n" ++ String.ofList (List.replicate (2 * depth) ' ')

mutual

/-- The text with one item or field to a line, indented by two blanks for each container around
it. Empty containers stay on their line. -/
def indented (depth : Nat) : Json → String
  | .array (item :: rest) =>
    "[" ++ lineBreak (depth + 1) ++ indented (depth + 1) item ++ indentedItems (depth + 1) rest ++
      lineBreak depth ++ "]"
  | .object ((name, item) :: rest) =>
    "\x7b" ++ lineBreak (depth + 1) ++ quote name ++ ": " ++ indented (depth + 1) item ++
      indentedFields (depth + 1) rest ++ lineBreak depth ++ "\x7d"
  | .array [] => "[]"
  | .object [] => "\x7b\x7d"
  | .null => "null"
  | .bool b => if b then "true" else "false"
  | .number n => numberText n
  | .string s => quote s

/-- The items after the first, each with the comma before it. -/
def indentedItems (depth : Nat) : List Json → String
  | [] => ""
  | item :: rest => "," ++ lineBreak depth ++ indented depth item ++ indentedItems depth rest

def indentedFields (depth : Nat) : List (String × Json) → String
  | [] => ""
  | (name, item) :: rest =>
    "," ++ lineBreak depth ++ quote name ++ ": " ++ indented depth item ++
      indentedFields depth rest

end

end ConfigExpr.Json
