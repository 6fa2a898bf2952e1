import ConfigExpr.DatePhrase.CivilTime
import ConfigExpr.DatePhrase.Reading

/-!
The instant that an English date phrase denotes. A text that is a complete civil time stands for
that time; any other text is read token by token, relative to a base.
-/
namespace ConfigExpr.DatePhrase
open Text

/-- Reads tokens only. -/
def parseTokens (text : List Char) (base offset : Int) : Except NoInstant Int := do
  let tokens ← understood (Token.tokens? (text.map Char.toLower))
  let reading ← understood (Reading.ofTokens? tokens)
  reading.resolve base offset

/-- The instant of a text, in seconds since 1970-01-01, relative to a base instant and with local
times at an offset east of UTC. -/
def parse (text : String) (base offset : Int) : Except NoInstant Int :=
  match strip isBlank text.toList with
  | [] => .error .notUnderstood
  | trimmed =>
    match Rfc3339.parse? trimmed with
    | some instant => .ok instant
    | none =>
      match Rfc2822.parse? trimmed with
      | some instant => .ok instant
      | none => parseTokens trimmed base offset

end ConfigExpr.DatePhrase
