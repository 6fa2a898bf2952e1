/-!
What can be wrong with the text of a JSON document, and where. The position counts bytes: a column
is the number of bytes read since the last line break.
-/
namespace ConfigExpr.Json

inductive SyntaxFault where
  | endOfValue
  | endOfList
  | endOfObject
  | endOfString
  | expectedWord
  | expectedValue
  | expectedColon
  | expectedItemEnd
  | expectedFieldEnd
  | keyNotString
  | trailingComma
  | trailingCharacters
  | invalidNumber
  | numberOutOfRange
  | invalidEscape
  | controlCharacter
  | loneSurrogate
  | endOfHexEscape
  | tooDeep
deriving DecidableEq, Repr

def SyntaxFault.message : SyntaxFault → String
  | .endOfValue => "EOF while parsing a value"
  | .endOfList => "EOF while parsing a list"
  | .endOfObject => "EOF while parsing an object"
  | .endOfString => "EOF while parsing a string"
  | .expectedWord => "expected ident"
  | .expectedValue => "expected value"
  | .expectedColon => "expected `:`"
  | .expectedItemEnd => "expected `,` or `]`"
  | .expectedFieldEnd => "expected `,` or `\x7d`"
  | .keyNotString => "key must be a string"
  | .trailingComma => "trailing comma"
  | .trailingCharacters => "trailing characters"
  | .invalidNumber => "invalid number"
  | .numberOutOfRange => "number out of range"
  | .invalidEscape => "invalid escape"
  | .controlCharacter => "control character (\\u0000-\\u001F) found while parsing a string"
  | .loneSurrogate => "lone leading surrogate in hex escape"
  | .endOfHexEscape => "unexpected end of hex escape"
  | .tooDeep => "recursion limit exceeded"

structure SyntaxError where
  fault : SyntaxFault
  line : Nat
  column : Nat
deriving DecidableEq, Repr

namespace SyntaxError

/-- Places a fault behind the bytes read so far. -/
def after (fault : SyntaxFault) (read : List UInt8) : SyntaxError where
  fault := fault
  line := read.count 10 + 1
  column := (read.reverse.takeWhile (· != 10)).length

def message (e : SyntaxError) : String :=
  e.fault.message ++ " at line " ++ toString e.line ++ " column " ++ toString e.column

end SyntaxError

end ConfigExpr.Json
