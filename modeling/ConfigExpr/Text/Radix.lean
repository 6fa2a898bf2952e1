import ConfigExpr.Text.Digit
import ConfigExpr.Text.Strip

/-!
Integers at the start of a text in a base from 2 to 36. Behind leading blanks and a sign may stand
the mark of base 2, 8 or 16; base 0 takes the base from the mark, where a zero alone marks base 8.
The digits that follow make up a magnitude in arithmetic of 64 bits. Where that would overflow, the
result is the outermost integer of the sign, and no digit behind is looked at.
-/
namespace ConfigExpr.Text.Radix

def markedBase? (letter : Char) : Option Nat :=
  match letter.toLower with
  | 'x' => some 16
  | 'o' => some 8
  | 'b' => some 2
  | _ => none

/-- The base in which the digits behind its mark are read, and those digits. -/
def takeMark (base : Nat) (text : List Char) : Nat × List Char :=
  match text with
  | '0' :: letter :: rest =>
    match markedBase? letter with
    | some marked =>
      if base = 0 || base = marked then (marked, rest)
      else (base, text)
    | none => if base = 0 then (8, letter :: rest) else (base, text)
  | ['0'] => if base = 0 then (8, []) else (base, text)
  | _ => (if base = 0 then 10 else base, text)

def leadingDigits (base : Nat) : List Char → List Nat
  | [] => []
  | c :: rest =>
    match digitIn? base c with
    | some digit => digit :: leadingDigits base rest
    | none => []

/-- The magnitude with one more digit, unless the product or the sum overflows. -/
def appendDigit? (base : Nat) (magnitude : Int64) (digit : Nat) : Option Int64 :=
  let factor := Int64.ofNat base
  if magnitude.toBitVec.smulOverflow factor.toBitVec then none
  else
    let product := magnitude * factor
    let last := Int64.ofNat digit
    if product.toBitVec.saddOverflow last.toBitVec then none else some (product + last)

def magnitude? (base : Nat) (digits : List Nat) : Option Int64 :=
  digits.foldlM (appendDigit? base) 0

/-- The magnitude of a text without a sign, if it has 63 bits. -/
def unsigned? (base : Nat) (text : List Char) : Option Int64 :=
  let (base, text) := takeMark base text
  magnitude? base (leadingDigits base text)

def signed (negative : Bool) : Option Int64 → Int64
  | some magnitude => if negative then -magnitude else magnitude
  | none => if negative then Int64.minValue else Int64.maxValue

def parse (base : Nat) (text : String) : Int64 :=
  match stripStart isBlank text.toList with
  | '-' :: rest => signed true (unsigned? base rest)
  | '+' :: rest => signed false (unsigned? base rest)
  | text => signed false (unsigned? base text)

end ConfigExpr.Text.Radix
