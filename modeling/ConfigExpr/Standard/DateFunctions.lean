import ConfigExpr.Calendar.DateFormat
import ConfigExpr.DatePhrase.Parse
import ConfigExpr.Standard.Arguments

/-!
Functions on dates: the current time, dates written by format letters, and instants read from
phrases.
-/
namespace ConfigExpr.Standard
open Calendar

def currentTime : HostFunction where
  signature := .fixed "time" [] .integer
  documentation := "Returns the current time measured in seconds since the Unix Epoch."
  isPure := false
  body _ context := return .integer (Int64.ofInt context.now)

/-- The instant of an optional argument, or the current time. -/
def instantArgument (name : String) (args : List Value) (index : Nat) (param : String)
    (context : Context) : Except CallFailure Int := do
  match ← integerArgument? name args index param with
  | some n => return n.toInt
  | none => return context.now

def outOfRange (instant : Int) : String :=
  "Timestamp " ++ String.ofList (Numeral.ofInt instant) ++ " is out of range"

def date : HostFunction where
  signature := .fixed "date"
    [.required "format" .string, .allowed "timestamp" .integer] .string
  documentation :=
    "Formats a Unix timestamp (default: now) using date format letters such as Y-m-d H:i:s. " ++
      "A backslash prints the next character literally."
  isPure := false
  body args context := do
    let pattern ← textArgument "date" args 0 "format"
    let instant ← instantArgument "date" args 1 "timestamp" context
    if isSupportedInstant instant then
      return .string (DateFormat.format pattern ⟨instant, context.offset⟩)
    else throw (.failed "date" (outOfRange instant))

def localTimeOutOfRange : String :=
  "Local time out of range for `NaiveDateTime`"

def noLocalTime : CallFailure :=
  .crash "strtotime" localTimeOutOfRange

/-- A phrase that is not understood gives `false`. -/
def phraseResult : Except DatePhrase.NoInstant Int → CallResult
  | .ok instant => .ok (.integer (Int64.ofInt instant))
  | .error .notUnderstood => .ok (.bool false)
  | .error .noLocalTime => .error noLocalTime

def instantOfPhrase : HostFunction where
  signature := .fixed "strtotime"
    [.required "datetime" .string, .allowed "baseTimestamp" .integer] .integer
  documentation :=
    "Parses an English textual datetime description into a Unix timestamp, relative to " ++
      "baseTimestamp (default: now). Returns false when the text cannot be parsed."
  isPure := false
  body args context := do
    let text ← textArgument "strtotime" args 0 "datetime"
    let base ← instantArgument "strtotime" args 1 "baseTimestamp" context
    phraseResult (DatePhrase.parse text base context.offset)

end ConfigExpr.Standard
