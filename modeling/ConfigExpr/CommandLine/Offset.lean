import ConfigExpr.Text.Numeral

/-!
Offsets from UTC as they are given on the command line: a sign for the whole, hours, and perhaps a
colon with minutes. Hours and minutes are signed numerals of 32 bits, the arithmetic on them stays
within 32 bits, and the result is below a day.
-/
namespace ConfigExpr.CommandLine

inductive OffsetFault where
  | notAnOffset
  | outOfRange
deriving DecidableEq, Repr

def within32? (n : Int) : Option Int :=
  if -2 ^ 31 ≤ n && n < 2 ^ 31 then some n else none

/-- Splits at the first colon; without one the minutes are zero. -/
def splitAtColon (text : List Char) : List Char × List Char :=
  match text.dropWhile (· != ':') with
  | [] => (text, ['0'])
  | _ :: minutes => (text.takeWhile (· != ':'), minutes)

def offsetSeconds? (sign hours minutes : Int) : Option Int := do
  let hours ← within32? (hours * 3600)
  let minutes ← within32? (minutes * 60)
  let total ← within32? (hours + minutes)
  let total ← within32? (total * sign)
  if total.natAbs < 86400 then some total else none

def parseOffset (text : List Char) : Except OffsetFault Int :=
  let (sign, rest) : Int × List Char := match text with
    | '+' :: rest => (1, rest)
    | '-' :: rest => (-1, rest)
    | _ => (1, text)
  let (hours, minutes) := splitAtColon rest
  match Numeral.read32 hours, Numeral.read32 minutes with
  | .ok hours, .ok minutes =>
    match offsetSeconds? sign hours minutes with
    | some seconds => .ok seconds
    | none => .error .outOfRange
  | _, _ => .error .notAnOffset

def OffsetFault.message (text : String) : OffsetFault → String
  | .notAnOffset => "invalid offset '" ++ text ++ "'"
  | .outOfRange => "offset '" ++ text ++ "' is out of range"

end ConfigExpr.CommandLine
