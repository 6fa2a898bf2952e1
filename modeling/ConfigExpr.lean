import ConfigExpr.Calendar.DateFormat
import ConfigExpr.Calendar.Day
import ConfigExpr.CommandLine.Arguments
import ConfigExpr.CommandLine.Offset
import ConfigExpr.CommandLine.Run
import ConfigExpr.CommandLine.Terminal
import ConfigExpr.DatePhrase.CivilTime
import ConfigExpr.DatePhrase.Names
import ConfigExpr.DatePhrase.Parse
import ConfigExpr.DatePhrase.Reading
import ConfigExpr.DatePhrase.Scan
import ConfigExpr.DatePhrase.Token
import ConfigExpr.Digest.Algorithm
import ConfigExpr.Digest.Md5
import ConfigExpr.Digest.Padding
import ConfigExpr.Digest.Sha1
import ConfigExpr.Digest.Sha2
import ConfigExpr.Encoding.Base64
import ConfigExpr.Encoding.Form
import ConfigExpr.Encoding.Hex
import ConfigExpr.Evaluator.Allowlist
import ConfigExpr.Evaluator.Builtin
import ConfigExpr.Evaluator.Config
import ConfigExpr.Evaluator.Error
import ConfigExpr.Evaluator.Eval
import ConfigExpr.Expression.Basic
import ConfigExpr.Expression.Classify
import ConfigExpr.Fields
import ConfigExpr.Host.Failure
import ConfigExpr.Host.Function
import ConfigExpr.Host.Signature
import ConfigExpr.Host.Summary
import ConfigExpr.Json.Basic
import ConfigExpr.Json.Magnitude
import ConfigExpr.Json.Parser
import ConfigExpr.Json.Printer
import ConfigExpr.Json.SyntaxFault
import ConfigExpr.Main
import ConfigExpr.Number.Arithmetic
import ConfigExpr.Number.Binary64
import ConfigExpr.Number.Decimal
import ConfigExpr.Number.DecimalText
import ConfigExpr.Number.Logarithm
import ConfigExpr.Number.Power
import ConfigExpr.Number.Rounding
import ConfigExpr.Parameters
import ConfigExpr.Proofs.Calendar.Civil
import ConfigExpr.Proofs.Calendar.Formats
import ConfigExpr.Proofs.DatePhrase.CivilForms
import ConfigExpr.Proofs.DatePhrase.DigitRuns
import ConfigExpr.Proofs.DatePhrase.Layouts
import ConfigExpr.Proofs.DatePhrase.Phrases
import ConfigExpr.Proofs.DatePhrase.Resolution
import ConfigExpr.Proofs.DatePhrase.RoundTrip
import ConfigExpr.Proofs.DatePhrase.Scanning
import ConfigExpr.Proofs.Evaluator.Agreement
import ConfigExpr.Proofs.Evaluator.Precedence
import ConfigExpr.Proofs.Evaluator.References
import ConfigExpr.Proofs.Evaluator.Sandbox
import ConfigExpr.Proofs.Evaluator.Steps
import ConfigExpr.Proofs.Evaluator.Substitution
import ConfigExpr.Proofs.Evaluator.Validity
import ConfigExpr.Proofs.Expression.DepthGuard
import ConfigExpr.Proofs.Expression.Node
import ConfigExpr.Proofs.Expression.Weight
import ConfigExpr.Proofs.Fields
import ConfigExpr.Proofs.Json.ReadDocuments
import ConfigExpr.Proofs.Outcome
import ConfigExpr.Proofs.Parameters.Leaves
import ConfigExpr.Proofs.Parameters.Tables
import ConfigExpr.Proofs.Parameters.Ways
import ConfigExpr.Proofs.Standard.Dates
import ConfigExpr.Proofs.Standard.Interchange
import ConfigExpr.Proofs.Text.Numerals
import ConfigExpr.Proofs.Text.Utf8Decoding
import ConfigExpr.Proofs.Value.Interchange
import ConfigExpr.Standard.Arguments
import ConfigExpr.Standard.ConversionFunctions
import ConfigExpr.Standard.DateFunctions
import ConfigExpr.Standard.DigestFunctions
import ConfigExpr.Standard.Functions
import ConfigExpr.Standard.TextFunctions
import ConfigExpr.Template.Directive
import ConfigExpr.Template.Number
import ConfigExpr.Template.Render
import ConfigExpr.Text.CharacterList
import ConfigExpr.Text.Digit
import ConfigExpr.Text.Hidden
import ConfigExpr.Text.Numeral
import ConfigExpr.Text.Radix
import ConfigExpr.Text.Strip
import ConfigExpr.Text.Utf8
import ConfigExpr.Value.Basic
import ConfigExpr.Value.Coercion
import ConfigExpr.Value.FloatText
import ConfigExpr.Value.Kind
import ConfigExpr.Value.NumericPrefix
import ConfigExpr.Proofs.Evaluator.Monotonicity
import ConfigExpr.Proofs.Evaluator.FirstFailure
import ConfigExpr.Proofs.Value.Documents
import ConfigExpr.Proofs.Evaluator.InertDocuments
import ConfigExpr.Proofs.Standard.Purity
import ConfigExpr.Proofs.CommandLine.AllowedFunctions
import ConfigExpr.Proofs.Parameters.Flattening
import ConfigExpr.Proofs.Text.Utf8Encoding
import ConfigExpr.Proofs.Calendar.Months
import ConfigExpr.Proofs.Template.Length
import ConfigExpr.Proofs.DatePhrase.MonthPhrases
import ConfigExpr.Proofs.Standard.MonthEdges
import ConfigExpr.Proofs.Template.Grammar
import ConfigExpr.Proofs.Template.Refusals
import ConfigExpr.Proofs.DatePhrase.AbsoluteTokens
import ConfigExpr.Proofs.DatePhrase.SpacedItems
import ConfigExpr.Proofs.DatePhrase.WrittenTimes
import ConfigExpr.Proofs.Standard.Instants
import ConfigExpr.Proofs.DatePhrase.CivilTokens
import ConfigExpr.Proofs.DatePhrase.FixedShifts
import ConfigExpr.Proofs.DatePhrase.SignedAmounts
import ConfigExpr.Proofs.DatePhrase.CivilReadings
import ConfigExpr.Proofs.DatePhrase.IsoDates
import ConfigExpr.Proofs.DatePhrase.SignedCounts
import ConfigExpr.Proofs.DatePhrase.MonthSteps
import ConfigExpr.Proofs.Standard.RelativeDates
import ConfigExpr.Proofs.DatePhrase.DayPhrases
import ConfigExpr.Proofs.DatePhrase.Taking
import ConfigExpr.Proofs.DatePhrase.ForeignDigits
import ConfigExpr.Proofs.DatePhrase.LegibleForms
import ConfigExpr.Proofs.DatePhrase.NumberedWords
import ConfigExpr.Proofs.Number.Rounding
import ConfigExpr.Proofs.Number.Decimals
import ConfigExpr.Proofs.Number.NearestFloats
import ConfigExpr.Proofs.Text.DecimalLiterals
import ConfigExpr.Proofs.Number.DecimalTexts
import ConfigExpr.Proofs.Value.FloatTexts
import ConfigExpr.Proofs.Value.NumericPrefixes
import ConfigExpr.Proofs.Number.Arithmetic
import ConfigExpr.Proofs.Number.LogarithmSeries
import ConfigExpr.Proofs.Number.Logarithms
import ConfigExpr.Proofs.Number.LogarithmFloors
import ConfigExpr.Proofs.Template.GeneralNotation
import ConfigExpr.Proofs.Text.RadixNumerals
import ConfigExpr.Proofs.Value.NumericTexts
import ConfigExpr.Proofs.Standard.IntegerValues
import ConfigExpr.Proofs.Template.Padding
import ConfigExpr.Proofs.Text.WrittenDigits
import ConfigExpr.Proofs.Template.IntegerFields
import ConfigExpr.Proofs.Standard.FormattedIntegers
import ConfigExpr.Proofs.Calendar.FormatParts
import ConfigExpr.Proofs.Value.Scalars
import ConfigExpr.Proofs.Evaluator.Concatenation
import ConfigExpr.Proofs.Template.Placeholders
import ConfigExpr.Proofs.Standard.FilledTemplates
import ConfigExpr.Proofs.Standard.JoinedBytes
import ConfigExpr.Proofs.Value.Conversions
import ConfigExpr.Proofs.Value.CompactTexts
import ConfigExpr.Proofs.Parameters.FlatDocuments
import ConfigExpr.Proofs.Host.Validation
import ConfigExpr.Proofs.Standard.Extraction
import ConfigExpr.Proofs.Standard.ValidatedArguments
import ConfigExpr.Proofs.CommandLine.Offsets
import ConfigExpr.Proofs.Encoding.FormFields
import ConfigExpr.Proofs.Standard.StrippedTexts
import ConfigExpr.Proofs.Standard.OwnFailures
import ConfigExpr.Proofs.Evaluator.Fallbacks
import ConfigExpr.Proofs.DatePhrase.Consuming
import ConfigExpr.Proofs.DatePhrase.BoundedTokens
import ConfigExpr.Proofs.DatePhrase.BoundedReadings
import ConfigExpr.Proofs.Text.ByteCuts
import ConfigExpr.Proofs.DatePhrase.TokenLoop
