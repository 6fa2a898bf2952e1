import ConfigExpr.Text.Digit

/-!
Templates of formatted text. A template is a list of pieces: literal characters, where two percent
signs stand for one, and directives
`%[number$][flags][width][.precision]specifier`. A directive that cannot be read ends the template
with a fault, which is reported only when formatting arrives there.
-/
namespace ConfigExpr.Template
open Text

inductive Fault where
  | argumentNumber
  | missingPadding
  | width
  | precision
  | missingSpecifier
deriving DecidableEq, Repr

def Fault.message : Fault → String
  | .argumentNumber =>
    "Argument number specifier must be greater than zero and less than 2147483647"
  | .missingPadding => "Missing padding character"
  | .width => "Width must be greater than zero and less than 2147483647"
  | .precision => "Precision must be greater than zero and less than 2147483647"
  | .missingSpecifier => "Missing format specifier at end of string"

def numberLimit : Nat :=
  2 ^ 31 - 1

structure Layout where
  leftAlign : Bool
  plusSign : Bool
  padding : Char
deriving DecidableEq, Repr

structure Directive where
  /-- Counted from one; without a number the next value is taken. -/
  argument : Option Nat
  layout : Layout
  width : Nat
  precision : Option Nat
  specifier : Char
deriving DecidableEq, Repr

inductive Piece where
  | literal (c : Char)
  | directive (d : Directive)
  | fault (f : Fault)
deriving DecidableEq, Repr

def plain : Layout :=
  ⟨false, false, ' '⟩

/-- Takes a run of digits and gives its value, if there is a digit. -/
def takeNumber (text : List Char) : Option Nat × List Char :=
  match text.takeWhile isAsciiDigit with
  | [] => (none, text)
  | digits =>
    (some (decimalValue digits), text.dropWhile isAsciiDigit)

/-- Takes a number with a dollar sign behind it. -/
def takeArgument (text : List Char) : Except Fault (Option Nat × List Char) :=
  match takeNumber text with
  | (some number, '$' :: rest) =>
    if number = 0 || numberLimit < number then .error .argumentNumber
    else .ok (some number, rest)
  | _ => .ok (none, text)

/-- Takes flags in any order; of several paddings the last counts. -/
def takeFlags (layout : Layout) : List Char → Except Fault (Layout × List Char)
  | '-' :: rest => takeFlags { layout with leftAlign := true } rest
  | '+' :: rest => takeFlags { layout with plusSign := true } rest
  | '0' :: rest => takeFlags { layout with padding := '0' } rest
  | ' ' :: rest => takeFlags { layout with padding := ' ' } rest
  | '\'' :: padding :: rest => takeFlags { layout with padding := padding } rest
  | ['\''] => .error .missingPadding
  | text => .ok (layout, text)

/-- Takes a width; without digits it is zero. -/
def takeWidth (text : List Char) : Except Fault (Nat × List Char) :=
  let (number, rest) := takeNumber text
  let width := number.getD 0
  if numberLimit < width then .error .width else .ok (width, rest)

/-- Takes a point and the precision behind it; a point alone stands for zero. -/
def takePrecision : List Char → Except Fault (Option Nat × List Char)
  | '.' :: rest =>
    let (number, rest) := takeNumber rest
    let precision := number.getD 0
    if numberLimit < precision then .error .precision else .ok (some precision, rest)
  | text => .ok (none, text)

/-- Reads a directive behind its percent sign. -/
def readDirective (text : List Char) : Except Fault (Directive × List Char) := do
  let (argument, text) ← takeArgument text
  let (layout, text) ← takeFlags plain text
  let (width, text) ← takeWidth text
  let (precision, text) ← takePrecision text
  match text with
  | [] => throw .missingSpecifier
  | specifier :: rest => return (⟨argument, layout, width, precision, specifier⟩, rest)

/-- The pieces of a template. Every step reads at least one character, so as many steps as
characters are enough. -/
def pieces : (steps : Nat) → List Char → List Piece
  | 0, _ => []
  | _ + 1, [] => []
  | steps + 1, '%' :: '%' :: rest => .literal '%' :: pieces steps rest
  | steps + 1, '%' :: rest =>
    match readDirective rest with
    | .ok (d, rest) => .directive d :: pieces steps rest
    | .error f => [.fault f]
  | steps + 1, c :: rest => .literal c :: pieces steps rest

def parse (template : List Char) : List Piece :=
  pieces template.length template

end ConfigExpr.Template
