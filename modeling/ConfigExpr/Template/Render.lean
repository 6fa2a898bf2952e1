import ConfigExpr.Host.Function
import ConfigExpr.Template.Directive
import ConfigExpr.Template.Number

/-!
Formatting values by a template. Each directive takes the next value, or the one of its argument
number, and appends a field: a sign, digits or text, and padding up to the width. A field that would
take the output past a fixed length is refused. The result is text unless single bytes were written
that form no UTF-8.
-/
namespace ConfigExpr.Template

structure Output where
  segments : List (List UInt8)
  size : Nat
  size_eq : size = segments.flatten.length

namespace Output

def empty : Output :=
  ⟨[], 0, rfl⟩

def push (out : Output) (segment : List UInt8) : Output :=
  ⟨segment :: out.segments, segment.length + out.size, by simp [out.size_eq]⟩

def bytes (out : Output) : List UInt8 :=
  out.segments.reverse.flatten

theorem bytes_push (out : Output) (segment : List UInt8) :
    (out.push segment).bytes = out.bytes ++ segment := by
  simp [bytes, push]

theorem size_eq_length_bytes (out : Output) : out.size = out.bytes.length := by
  simp [bytes, out.size_eq]

end Output

/-- The longest output, in bytes, that a field may lead to. -/
def outputLimit : Nat :=
  2 ^ 20

def defaultPrecision : Nat :=
  6

/-- The most decimal places and significant digits that are honoured. -/
def maxPrecision : Nat :=
  53

/-- Containers count as whether they hold anything, and texts without a number as zero. -/
def integerOperand : Value → Int64
  | .array items => if items.isEmpty then 0 else 1
  | .object fields => if fields.isEmpty then 0 else 1
  | v => v.integer?.getD 0

def floatOperand : Value → Binary64
  | .array items => .ofInt (if items.isEmpty then 0 else 1)
  | .object fields => .ofInt (if fields.isEmpty then 0 else 1)
  | v => v.float?.getD (.zero false)

inductive Shown where
  /-- A sign and what follows it, to be padded. -/
  | field (sign content : List Char)
  | rawByte (b : UInt8)

def plusOrNone (layout : Layout) : List Char :=
  if layout.plusSign then ['+'] else []

def floatContent (d : Directive) (x : Binary64) : List Char :=
  let places := min (d.precision.getD defaultPrecision) maxPrecision
  if d.specifier = 'e' || d.specifier = 'E' then scientific x places d.specifier
  else if d.specifier = 'f' || d.specifier = 'F' then DecimalText.fixed x places
  else general x places (if d.specifier = 'G' then 'E' else 'e')

/-- The sign of a float; a negative zero has none. -/
def floatSign (layout : Layout) (x : Binary64) : List Char :=
  if x.isNegative && !x.isZero then ['-'] else plusOrNone layout

def integerSign (layout : Layout) (n : Int64) : List Char :=
  if n.toInt < 0 then ['-'] else plusOrNone layout

def unknownSpecifier (c : Char) : String :=
  "Unknown format specifier \"" ++ String.singleton c ++ "\""

def notText : String :=
  "Array to string conversion"

/-- What a directive shows, or why it shows nothing. -/
def show? (d : Directive) (v : Value) : Except String Shown :=
  let integer := integerOperand v
  let word := integer.toUInt64.toNat
  match d.specifier with
  | 's' =>
    match v.text? with
    | none => .error notText
    | some text =>
      let text := text.toList
      .ok (.field [] (match d.precision with | none => text | some limit => text.take limit))
  | 'd' => .ok (.field (integerSign d.layout integer) (Numeral.ofNat integer.toInt.natAbs))
  | 'u' => .ok (.field [] (Numeral.ofNat word))
  | 'b' => .ok (.field [] (Nat.toDigits 2 word))
  | 'o' => .ok (.field [] (Nat.toDigits 8 word))
  | 'x' => .ok (.field [] (Nat.toDigits 16 word))
  | 'X' => .ok (.field [] ((Nat.toDigits 16 word).map Char.toUpper))
  | 'c' => .ok (.rawByte (UInt8.ofNat word))
  | 'e' | 'E' | 'f' | 'F' | 'g' | 'G' =>
    let x := floatOperand v
    .ok (.field (floatSign d.layout x) (floatContent d x.abs))
  | other => .error (unknownSpecifier other)

/-- Zeros go between the sign and the rest, other padding in front, and any padding behind a field
that is aligned to the left. -/
def layOut (layout : Layout) (sign content fill : List Char) : List Char :=
  if layout.leftAlign then sign ++ content ++ fill
  else if layout.padding = '0' then sign ++ fill ++ content
  else fill ++ sign ++ content

def tooLong : String :=
  "Result exceeds the maximum length of " ++ String.ofList (Numeral.ofNat outputLimit) ++ " bytes"

/-- Appends a padded field. Its length is checked before the padding is written. -/
def pushField (d : Directive) (out : Output) (sign content : List Char) : Except String Output :=
  let missing := d.width - (sign.length + content.length)
  let written := Utf8.encodeChars (sign ++ content)
  let total := out.size + written.length + missing * (Utf8.encodeChar d.layout.padding).length
  if outputLimit < total then .error tooLong
  else
    let fill := List.replicate missing d.layout.padding
    .ok (out.push (Utf8.encodeChars (layOut d.layout sign content fill)))

def pushDirective (d : Directive) (out : Output) (v : Value) : Except String Output :=
  match show? d v with
  | .error reason => .error reason
  | .ok (.rawByte b) => .ok (out.push [b])
  | .ok (.field sign content) => pushField d out sign content

/-- What is said when the value at an index is not there; the template counts as an argument. -/
def missingValue (index count : Nat) : String :=
  CallFailure.number (index + 2) ++ " arguments are required, " ++
    CallFailure.number (count + 1) ++ " given"

structure State where
  out : Output
  next : Nat

def step (values : List Value) (s : State) : Piece → Except String State
  | .literal c => .ok { s with out := s.out.push (Utf8.encodeChar c) }
  | .fault f => .error f.message
  | .directive d =>
    let (index, next) := match d.argument with
      | some number => (number - 1, s.next)
      | none => (s.next, s.next + 1)
    match values[index]? with
    | none => .error (missingValue index values.length)
    | some v => (pushDirective d s.out v).map fun out => ⟨out, next⟩

def renderBytes (template : String) (values : List Value) : Except String (List UInt8) :=
  ((parse template.toList).foldlM (step values) ⟨.empty, 0⟩).map fun s => s.out.bytes

def ofBytes (bytes : List UInt8) : Value :=
  match Utf8.decode? bytes with
  | some text => .string text
  | none => .bytes bytes

/-- Formats values on behalf of a function, whose name stands before the reason of a failure. -/
def format (name : String) (template : String) (values : List Value) : CallResult :=
  match renderBytes template values with
  | .ok bytes => .ok (ofBytes bytes)
  | .error reason => .error (.failed name reason)

end ConfigExpr.Template
