import ConfigExpr.Encoding.Base64
import ConfigExpr.Encoding.Form
import ConfigExpr.Standard.Arguments
import ConfigExpr.Template.Render
import ConfigExpr.Text.CharacterList

/-!
Functions on text: encodings, letter case, stripping, joining and formatting.
-/
namespace ConfigExpr.Standard
open Text

def base64Encode : HostFunction where
  signature := .fixed "base64_encode" [.required "string" .string] .string
  documentation := "Encodes data with MIME base64. Raw digest output is encoded byte for byte."
  isPure := true
  body args _ := do
    let data ← bytesArgument "base64_encode" args 0 "string"
    return .string (Base64.encode data)

def urlEncode : HostFunction where
  signature := .fixed "urlencode" [.required "string" .string] .string
  documentation :=
    "URL-encodes a string the way HTML forms are encoded: spaces as plus signs, " ++
      "other non-alphanumeric characters except -_. as %XX."
  isPure := true
  body args _ := do
    let data ← bytesArgument "urlencode" args 0 "string"
    return .string (Form.encode data)

def mapText (f : Char → Char) (text : String) : String :=
  String.ofList (text.toList.map f)

def lowerCase : HostFunction where
  signature := .fixed "strtolower" [.required "string" .string] .string
  documentation := "Returns the string with all ASCII letters converted to lowercase."
  isPure := true
  body args _ := do
    let text ← textArgument "strtolower" args 0 "string"
    return .string (mapText Char.toLower text)

def upperCase : HostFunction where
  signature := .fixed "strtoupper" [.required "string" .string] .string
  documentation := "Returns the string with all ASCII letters converted to uppercase."
  isPure := true
  body args _ := do
    let text ← textArgument "strtoupper" args 0 "string"
    return .string (mapText Char.toUpper text)

/-- What is stripped unless a list of characters is given. -/
def defaultStripped : String :=
  " \n\r\t\x0b\x00"

def stripListed (text list : String) : String :=
  String.ofList (strip (Intervals.ofList list.toList).contains text.toList)

def trim : HostFunction where
  signature := .fixed "trim"
    [.required "string" .string, .allowed "characters" .string] .string
  documentation :=
    "Strips whitespace (or the given characters, with a..z ranges) " ++
      "from the beginning and end of a string."
  isPure := true
  body args _ := do
    let text ← textArgument "trim" args 0 "string"
    let list ← if args.length ≤ 1 then pure defaultStripped
      else textArgument "trim" args 1 "characters"
    return .string (stripListed text list)

def elements (index : Nat) : Value → Except CallFailure (List Value)
  | .array items => .ok items
  | .object fields => .ok (fields.map Prod.snd)
  | v => .error (wrongType "implode" index "array" (if index = 0 then "array" else "?array") v)

def joinAll (separator : String) (items : List Value) : CallResult := do
  let texts ← items.mapM (joinedText "implode")
  return .string (String.intercalate separator texts)

def implode : HostFunction where
  signature := .fixed "implode"
    [.required "separator" .any, .allowed "array" .any] .string
  documentation :=
    "Joins array elements with a separator string. " ++
      "With a single argument the elements are joined without a separator."
  isPure := true
  body args _ :=
    match args with
    | [_, pieces] => do
      let separator ← textArgument "implode" args 0 "separator"
      let items ← elements 1 pieces
      joinAll separator items
    | _ => do
      let items ← elements 0 (argument args 0)
      joinAll "" items

def formatted : HostFunction where
  signature := .variadic "sprintf"
    [.required "format" .string, .allowed "values" .any] .string
  documentation :=
    "Returns a string produced according to the format string. Conversions follow " ++
      "%[argnum$][flags][width][.precision]specifier with specifiers b, c, d, e, E, f, F, " ++
      "g, G, o, s, u, x, X and %."
  isPure := true
  body args _ := do
    let template ← textArgument "sprintf" args 0 "format"
    Template.format "sprintf" template args.tail

end ConfigExpr.Standard
