import ConfigExpr.Text.Utf8

/-!
Text as it is left when what only steers a terminal is taken out: control characters other than
blanks, and escape sequences. A sequence starts with an escape character, and what follows decides
how far it goes; line breaks and tabs are kept even inside the short kinds, and then the text behind
them is kept as well.
-/
namespace ConfigExpr.Terminal

/-- Where a text stands with regard to escape sequences. -/
inductive Mode where
  | text
  /-- Behind an escape character. -/
  | escape
  /-- Behind an escape character and characters that do not yet end its sequence. -/
  | escapeMiddle
  /-- In a control sequence, which ends with a letter or a similar character. -/
  | control
  /-- At the start of a sequence for a device. -/
  | device
  /-- Behind parameters for a device. -/
  | deviceParameters
  /-- Behind other characters that come before the string for a device. -/
  | deviceMiddle
  /-- In a string for a device or an application. -/
  | string
  /-- In a command for the system, which ends with a bell. -/
  | command
deriving DecidableEq, Repr

def isBetween (low high : Nat) (c : Char) : Bool :=
  low ≤ c.toNat && c.toNat ≤ high

/-- Tab, line feed, form feed and carriage return. -/
def isBlankControl (c : Char) : Bool :=
  c == '\t' || c == '\n' || c == '\x0c' || c == '\r'

def isBeyondAscii (c : Char) : Bool :=
  0x80 ≤ c.toNat

/-- Whether a character is kept outside of sequences. -/
def isKept (c : Char) : Bool :=
  isBetween 0x20 0x7E c || isBlankControl c || isBeyondAscii c

/-- The terminator of strings is the byte 9C, which also occurs within characters. -/
def endsString (c : Char) : Bool :=
  (Utf8.encodeChar c).contains 0x9C

namespace Mode

/-- Whether a character is kept although the text before it was not. -/
def keeps (mode : Mode) (c : Char) : Bool :=
  match mode with
  | .text => isKept c
  | .escape | .escapeMiddle | .control => isBlankControl c
  | _ => false

/-- The mode behind a character that is not kept. -/
def next (mode : Mode) (c : Char) : Mode :=
  if c = '\x1b' then .escape
  else if c = '\x18' || c = '\x1a' then .text
  else
    match mode with
    | .text => .text
    | .escape =>
      if c = '[' then .control
      else if c = ']' then .command
      else if c = 'P' then .device
      else if c = 'X' || c = '^' || c = '_' then .string
      else if isBetween 0x20 0x2F c then .escapeMiddle
      else if isBetween 0x30 0x7E c then .text
      else .escape
    | .escapeMiddle => if isBetween 0x30 0x7E c then .text else .escapeMiddle
    | .control => if isBetween 0x40 0x7E c then .text else .control
    | .device =>
      if isBetween 0x20 0x2F c then .deviceMiddle
      else if isBetween 0x30 0x3F c then .deviceParameters
      else if isBetween 0x40 0x7E c then .string
      else .device
    | .deviceParameters =>
      if isBetween 0x20 0x2F c then .deviceMiddle
      else if isBetween 0x3C 0x7E c then .string
      else .deviceParameters
    | .deviceMiddle => if isBetween 0x30 0x7E c then .string else .deviceMiddle
    | .string => if endsString c then .text else .string
    | .command => if c = '\x07' then .text else .command

end Mode

/-- The kept characters of a text; `keeping` says whether the last character was kept. -/
def keptFrom (keeping : Bool) (mode : Mode) : List Char → List Char
  | [] => []
  | c :: rest =>
    if keeping && isKept c then
      c :: keptFrom true (if isBeyondAscii c then .text else mode) rest
    else if !keeping && mode.keeps c then c :: keptFrom true mode rest
    else keptFrom false (mode.next c) rest

def visible (text : String) : String :=
  String.ofList (keptFrom false .text text.toList)

/-- A text that a terminal stands for inside a message, set off from the rest. -/
def highlighted (text : String) : String :=
  "\x1b[1m" ++ text ++ "\x1b[0m"

end ConfigExpr.Terminal
