import ConfigExpr.Text.Digit
import ConfigExpr.Text.Strip

/-!
Scanners. A scanner takes something from the start of a text and leaves the rest, or finds that the
text does not start with it. Runs of characters are always taken as long as they go.
-/
namespace ConfigExpr

abbrev Scan := StateT (List Char) Option

namespace Scan
open Text
variable {α : Type}

def one (p : Char → Bool) : Scan Char
  | [] => none
  | c :: rest => if p c then some (c, rest) else none

def char (c : Char) : Scan Unit
  | [] => none
  | d :: rest => if d = c then some ((), rest) else none

/-- All characters of a class, perhaps none. -/
def run (p : Char → Bool) : Scan (List Char) :=
  fun text => some (text.takeWhile p, text.dropWhile p)

/-- All characters of a class, at least one. -/
def some1 (p : Char → Bool) : Scan (List Char) :=
  fun text =>
    match text.takeWhile p with
    | [] => none
    | taken => some (taken, text.dropWhile p)

/-- The characters of a class at the start of a text, at most so many, and the rest. -/
def spanUpTo (p : Char → Bool) : Nat → List Char → List Char × List Char
  | 0, text => ([], text)
  | _ + 1, [] => ([], [])
  | most + 1, c :: rest =>
    if p c then
      let (taken, rest) := spanUpTo p most rest
      (c :: taken, rest)
    else ([], c :: rest)

/-- Characters of a class, at least one and at most so many. -/
def upTo (most : Nat) (p : Char → Bool) : Scan (List Char) :=
  fun text =>
    match spanUpTo p most text with
    | ([], _) => none
    | (taken, rest) => some (taken, rest)

/-- Exactly so many characters of a class. -/
def exactly (count : Nat) (p : Char → Bool) : Scan (List Char) :=
  fun text =>
    let (taken, rest) := spanUpTo p count text
    if taken.length = count then some (taken, rest) else none

def opt (x : Scan α) : Scan (Option α) :=
  fun text =>
    match x text with
    | some (a, rest) => some (some a, rest)
    | none => some (none, text)

def firstOf (scans : List (Scan α)) : Scan α :=
  fun text => scans.findSome? fun x => x text

/-- Characters of which words consist. Other letters than ASCII ones are in no word that a scanner
knows, and whether they continue a word never matters, since no scanner takes them. -/
def isWordChar (c : Char) : Bool :=
  c.isAlphanum || c == '_' || isDecimalDigit c

/-- The end of a word: what follows does not continue it. -/
def wordEnd : Scan Unit
  | [] => some ((), [])
  | c :: rest => if isWordChar c then none else some ((), c :: rest)

def letters : Scan (List Char) :=
  some1 Char.isLower

def word : Scan String := do
  let text ← letters
  wordEnd
  return String.ofList text

def blanks : Scan (List Char) :=
  run isBlank

def blanks1 : Scan (List Char) :=
  some1 isBlank

def value (x : Option α) : Scan α :=
  fun text => x.map fun a => (a, text)

def require (condition : Bool) : Scan Unit :=
  fun text => if condition then some ((), text) else none

end Scan

end ConfigExpr
