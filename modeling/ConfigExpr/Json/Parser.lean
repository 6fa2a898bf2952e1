import ConfigExpr.Json.Basic
import ConfigExpr.Json.Magnitude
import ConfigExpr.Json.SyntaxFault
import ConfigExpr.Text.Digit
import ConfigExpr.Text.Utf8

/-!
Reading JSON documents from bytes. A text holds one document, with at most a given number of
containers inside each other and with numbers within the range of 64-bit floats. A reader returns
what it read with the bytes that are left, or a fault with the number of bytes that are left behind
it.
-/
namespace ConfigExpr.Json
open Text

structure Failure where
  fault : SyntaxFault
  left : Nat

abbrev Read (α : Type) := Except Failure (α × List UInt8)

/-- A fault at the end of what was read. -/
def failHere {α : Type} (fault : SyntaxFault) (rest : List UInt8) : Read α :=
  .error ⟨fault, rest.length⟩

/-- A fault at the next byte, which counts as read. -/
def failAtNext {α : Type} (fault : SyntaxFault) (rest : List UInt8) : Read α :=
  .error ⟨fault, rest.length - 1⟩

def byte (c : Char) : UInt8 :=
  c.toUInt8

def isDigitByte (b : UInt8) : Bool :=
  byte '0' ≤ b && b ≤ byte '9'

def digitOfByte (b : UInt8) : Nat :=
  b.toNat - 48

def skipSpace (s : List UInt8) : List UInt8 :=
  s.dropWhile fun b => b == 32 || b == 10 || b == 9 || b == 13

/-- Reads the rest of a word that stands for a fixed document. -/
def readWord (document : Json) : List Char → List UInt8 → Read Json
  | [], s => .ok (document, s)
  | _ :: _, [] => failHere .endOfValue []
  | c :: word, b :: rest =>
    if b = byte c then readWord document word rest else failHere .expectedWord rest

/-- The value of exponent digits, or what is left behind the digit that takes it past 31 bits. -/
def exponentValue : Nat → List UInt8 → Except Nat Nat
  | value, [] => .ok value
  | value, b :: rest =>
    let next := value * 10 + digitOfByte b
    if next < 2 ^ 31 then exponentValue next rest else .error rest.length

/-- The unsigned exponent of a number: a sign flag and its digits. -/
def readExponent (s : List UInt8) : Read (Bool × List UInt8) :=
  let negative := s.head? == some (byte '-')
  let digits := if negative || s.head? == some (byte '+') then s.tail else s
  match digits with
  | [] => failHere .endOfValue []
  | b :: rest =>
    if isDigitByte b then
      .ok ((negative, digits.takeWhile isDigitByte), digits.dropWhile isDigitByte)
    else failHere .invalidNumber rest

def floatRead (x : Binary64) (rest : List UInt8) : Read Json :=
  if finite : x.isFinite = true then .ok (.number (.float x finite), rest)
  else failHere .numberOutOfRange rest

/-- The exponent part and the value of a number whose other digits have been read. -/
def readScaled (negative : Bool) (m : Magnitude) (s : List UInt8) : Read Json :=
  match s with
  | mark :: rest =>
    if mark = byte 'e' || mark = byte 'E' then
      (readExponent rest).bind fun ((below, exponent), rest) =>
      match exponentValue 0 exponent with
      | .ok value =>
        let shift : Int := if below then -value else value
        floatRead ({ m with exponent := m.exponent + shift }.toSignedFloat negative) rest
      | .error left =>
        if m.significand ≠ 0 && !below then .error ⟨.numberOutOfRange, left + rest.length⟩
        else floatRead (.zero negative) rest
    else floatRead (m.toSignedFloat negative) s
  | [] => floatRead (m.toSignedFloat negative) s

/-- An integer is kept when it has 64 bits, unsigned or signed; zero with a minus sign and anything
larger is a float. -/
def readInteger (negative : Bool) (whole : List Nat) (s : List UInt8) : Read Json :=
  let m := Magnitude.ofDigits whole []
  if m.exponent = 0 && !negative then .ok (.integer m.significand, s)
  else if m.exponent = 0 && 0 < m.significand && m.significand ≤ 2 ^ 63 then
    .ok (.integer (-m.significand), s)
  else floatRead (m.toSignedFloat negative) s

def readNumberTail (negative : Bool) (whole : List Nat) (s : List UInt8) : Read Json :=
  match s with
  | mark :: rest =>
    if mark = byte '.' then
      let fraction := rest.takeWhile isDigitByte
      match fraction, rest with
      | [], [] => failHere .endOfValue []
      | [], _ :: _ => failAtNext .invalidNumber rest
      | _ :: _, _ =>
        readScaled negative (.ofDigits whole (fraction.map digitOfByte))
          (rest.dropWhile isDigitByte)
    else if mark = byte 'e' || mark = byte 'E' then
      readScaled negative (.ofDigits whole []) s
    else readInteger negative whole s
  | [] => readInteger negative whole s

/-- A number behind its sign. A zero at its start has no digit after it. -/
def readNumber (negative : Bool) : List UInt8 → Read Json
  | [] => failHere .endOfValue []
  | b :: rest =>
    if b = byte '0' then
      match rest with
      | next :: _ =>
        if isDigitByte next then failAtNext .invalidNumber rest
        else readNumberTail negative [0] rest
      | [] => readNumberTail negative [0] rest
    else if isDigitByte b then
      readNumberTail negative ((b :: rest.takeWhile isDigitByte).map digitOfByte)
        (rest.dropWhile isDigitByte)
    else failHere .invalidNumber rest

def hexOfByte? (b : UInt8) : Option Nat :=
  if b < 128 then digitIn? 16 (Char.ofNat b.toNat) else none

def readHex : List UInt8 → Read Nat
  | a :: b :: c :: d :: rest =>
    match [a, b, c, d].mapM hexOfByte? with
    | some digits => .ok (ofDigits 16 digits, rest)
    | none => failHere .invalidEscape rest
  | _ => failHere .endOfString []

/-- A byte that has to follow the first half of a surrogate pair. -/
def expectInPair (c : Char) : List UInt8 → Read Unit
  | [] => failHere .endOfString []
  | b :: rest => if b = byte c then .ok ((), rest) else failHere .endOfHexEscape rest

/-- A character written as one escape, or as a pair of them above U+FFFF. -/
def readUnicodeEscape (s : List UInt8) : Read Char :=
  (readHex s).bind fun (first, rest) =>
  if 0xDC00 ≤ first && first ≤ 0xDFFF then failHere .loneSurrogate rest
  else if first < 0xD800 || 0xDBFF < first then .ok (Char.ofNat first, rest)
  else
    (expectInPair '\\' rest).bind fun ((), rest) =>
    (expectInPair 'u' rest).bind fun ((), rest) =>
    (readHex rest).bind fun (second, rest) =>
    if second < 0xDC00 || 0xDFFF < second then failHere .loneSurrogate rest
    else .ok (Char.ofNat ((first - 0xD800) * 1024 + (second - 0xDC00) + 0x10000), rest)

def readEscape : List UInt8 → Read Char
  | [] => failHere .endOfString []
  | b :: rest =>
    if b = byte '"' then .ok ('"', rest)
    else if b = byte '\\' then .ok ('\\', rest)
    else if b = byte '/' then .ok ('/', rest)
    else if b = byte 'b' then .ok ('\x08', rest)
    else if b = byte 'f' then .ok ('\x0c', rest)
    else if b = byte 'n' then .ok ('\n', rest)
    else if b = byte 'r' then .ok ('\r', rest)
    else if b = byte 't' then .ok ('\t', rest)
    else if b = byte 'u' then readUnicodeEscape rest
    else failHere .invalidEscape rest

/-- A string behind its opening quote; `seen` holds the bytes of its text so far, last first. Every
step reads at least one byte, so as many steps as bytes are enough. -/
def readString : (steps : Nat) → (seen : List UInt8) → List UInt8 → Read String
  | 0, _, s => failHere .endOfString s
  | _ + 1, _, [] => failHere .endOfString []
  | steps + 1, seen, b :: rest =>
    if b = byte '"' then .ok (Utf8.decodeLossy seen.reverse, rest)
    else if b = byte '\\' then
      match readEscape rest with
      | .ok (c, rest) => readString steps ((Utf8.encodeChar c).reverse ++ seen) rest
      | .error failure => .error failure
    else if b < 0x20 then failHere .controlCharacter rest
    else readString steps (b :: seen) rest

def readText (s : List UInt8) : Read String :=
  readString (s.length + 1) [] s

mutual

/-- A document at the first byte that is no space. `room` is how many containers may still be
opened inside each other; `steps` bounds the number of documents, items and fields read. -/
def readDocument : (steps : Nat) → (room : Nat) → List UInt8 → Read Json
  | 0, _, s => failHere .endOfValue s
  | steps + 1, room, s =>
    match skipSpace s with
    | [] => failAtNext .endOfValue []
    | b :: rest =>
      if b = byte 'n' then readWord .null ['u', 'l', 'l'] rest
      else if b = byte 't' then readWord (.bool true) ['r', 'u', 'e'] rest
      else if b = byte 'f' then readWord (.bool false) ['a', 'l', 's', 'e'] rest
      else if b = byte '-' then readNumber true rest
      else if isDigitByte b then readNumber false (b :: rest)
      else if b = byte '"' then
        (readText rest).bind fun (text, rest) =>
        .ok (.string text, rest)
      else if b = byte '[' then
        match room with
        | 0 => failAtNext .tooDeep (b :: rest)
        | room + 1 => readFirstItem steps room rest
      else if b = byte '\x7b' then
        match room with
        | 0 => failAtNext .tooDeep (b :: rest)
        | room + 1 => readFirstField steps room rest
      else failAtNext .expectedValue (b :: rest)

/-- The items of an array behind its opening bracket. -/
def readFirstItem : (steps : Nat) → (room : Nat) → List UInt8 → Read Json
  | 0, _, s => failHere .endOfList s
  | steps + 1, room, s =>
    match skipSpace s with
    | [] => failAtNext .endOfList []
    | b :: rest =>
      if b = byte ']' then .ok (.array [], rest)
      else
        (readDocument steps room (b :: rest)).bind fun (item, rest) =>
        readItems steps room [item] rest

/-- The items of an array behind one of them; `seen` holds those read so far, last first. -/
def readItems : (steps : Nat) → (room : Nat) → (seen : List Json) → List UInt8 → Read Json
  | 0, _, _, s => failHere .endOfList s
  | steps + 1, room, seen, s =>
    match skipSpace s with
    | [] => failAtNext .endOfList []
    | b :: rest =>
      if b = byte ']' then .ok (.array seen.reverse, rest)
      else if b = byte ',' then
        match skipSpace rest with
        | [] => failAtNext .endOfValue []
        | next :: after =>
          if next = byte ']' then failAtNext .trailingComma (next :: after)
          else
            (readDocument steps room (next :: after)).bind fun (item, rest) =>
            readItems steps room (item :: seen) rest
      else failAtNext .expectedItemEnd (b :: rest)

/-- The fields of an object behind its opening brace. -/
def readFirstField : (steps : Nat) → (room : Nat) → List UInt8 → Read Json
  | 0, _, s => failHere .endOfObject s
  | steps + 1, room, s =>
    match skipSpace s with
    | [] => failAtNext .endOfObject []
    | b :: rest =>
      if b = byte '\x7d' then .ok (.object [], rest)
      else if b = byte '"' then readField steps room [] rest
      else failAtNext .keyNotString (b :: rest)

/-- A field behind the opening quote of its name, and the fields after it; `seen` holds the fields
read so far, last first. -/
def readField : (steps : Nat) → (room : Nat) → (seen : List (String × Json)) → List UInt8 →
    Read Json
  | 0, _, _, s => failHere .endOfObject s
  | steps + 1, room, seen, s =>
    (readText s).bind fun (name, rest) =>
    match skipSpace rest with
    | [] => failAtNext .endOfObject []
    | colon :: rest =>
      if colon = byte ':' then
        (readDocument steps room rest).bind fun (item, rest) =>
        readFields steps room ((name, item) :: seen) rest
      else failAtNext .expectedColon (colon :: rest)

/-- The fields of an object behind one of them. -/
def readFields : (steps : Nat) → (room : Nat) → (seen : List (String × Json)) → List UInt8 →
    Read Json
  | 0, _, _, s => failHere .endOfObject s
  | steps + 1, room, seen, s =>
    match skipSpace s with
    | [] => failAtNext .endOfObject []
    | b :: rest =>
      if b = byte '\x7d' then .ok (.object (Fields.ofList seen.reverse), rest)
      else if b = byte ',' then
        match skipSpace rest with
        | [] => failAtNext .endOfValue []
        | next :: after =>
          if next = byte '"' then readField steps room seen after
          else if next = byte '\x7d' then failAtNext .trailingComma (next :: after)
          else failAtNext .keyNotString (next :: after)
      else failAtNext .expectedFieldEnd (b :: rest)

end

def nestingLimit : Nat :=
  127

/-- Reads bytes that hold one document and nothing else but space around it. Each step reads a byte
or enters a document, so twice as many steps as bytes are enough. -/
def parseBytes (nesting : Nat) (bytes : List UInt8) : Except SyntaxError Json :=
  let read : Read Json :=
    (readDocument (2 * bytes.length + 2) nesting bytes).bind fun (document, rest) =>
    match skipSpace rest with
    | [] => .ok (document, [])
    | b :: rest => failAtNext .trailingCharacters (b :: rest)
  match read with
  | .ok (document, _) => .ok document
  | .error failure =>
    .error (.after failure.fault (bytes.take (bytes.length - failure.left)))

def parse (text : String) : Except SyntaxError Json :=
  parseBytes nestingLimit (Utf8.encode text)

end ConfigExpr.Json
