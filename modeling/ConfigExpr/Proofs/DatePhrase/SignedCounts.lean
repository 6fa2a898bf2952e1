import ConfigExpr.Proofs.DatePhrase.FixedShifts
import ConfigExpr.Proofs.DatePhrase.Phrases

/-!
A signed number of units, as in `+2 months`. Alone it is a phrase that shifts the base by that number,
if the number has 64 bits, and no phrase at all otherwise.
-/
namespace ConfigExpr.DatePhrase
open Calendar Text Scan

structure SignedCount (unit : TimeUnit) where
  back : Bool
  digits : List Char
  ascii : ∀ c ∈ digits, isAsciiDigit c = true
  filled : digits ≠ []
  word : List Char
  named : TimeUnit.ofWord? (String.ofList (word.map Char.toLower)) = some unit

namespace SignedCount
variable {unit : TimeUnit} (a : SignedCount unit) {rest : List Char}

def run : DigitRun a.digits.length :=
  ⟨a.digits, a.ascii, rfl⟩

def amount : Int :=
  if a.back then -decimalValue a.digits else decimalValue a.digits

def text : List Char :=
  Token.signOf a.back :: (a.digits ++ ' ' :: a.word)

theorem text_stops {p : Char → Bool} (others : ['+', '-'].any p = false) :
    Stops p (a.text ++ rest) := by
  have each := List.any_eq_false.mp others
  rw [text]
  cases a.back with
  | false => exact stops_cons (Bool.eq_false_iff.mpr (each '+' (by decide)))
  | true => exact stops_cons (Bool.eq_false_iff.mpr (each '-' (by decide)))

theorem text_reverse_stops : Stops isBlank (a.text.reverse ++ rest) := by
  obtain ⟨wordFilled, lower⟩ := Token.unitWord_lower a.named
  simp only [text, List.reverse_append, List.reverse_cons, List.append_assoc]
  refine stops_append (fun empty => wordFilled ?_) fun c member => ?_
  · rw [List.reverse_eq_nil_iff.mp empty]
    rfl
  · exact isBlank_of_isLower_toLower (lower _ (List.mem_map_of_mem (List.mem_reverse.mp member)))

theorem map_toLower : a.text.map Char.toLower =
    Token.signOf a.back :: (a.run.digits ++ ' ' :: a.word.map Char.toLower) := by
  have digits : a.digits.map Char.toLower = a.run.digits := a.run.map_toLower
  rw [text, List.map_cons, List.map_append, List.map_cons, digits]
  cases a.back with
  | false | true => rfl

theorem scan_lower (ends : Stops isWordChar rest) :
    Token.scan (a.text.map Char.toLower ++ rest) =
      some ((Token.number64? false a.digits).map fun amount =>
        .shift unit (if a.back then -amount else amount), rest) := by
  rw [a.map_toLower, List.cons_append, List.append_assoc, List.cons_append]
  exact Token.scan_signedNumber a.back a.run (List.length_pos_iff.mpr a.filled) a.named ends

theorem scan_of_small (small : decimalValue a.digits < 2 ^ 63) (ends : Stops isWordChar rest) :
    Token.scan (a.text.map Char.toLower ++ rest) = some (some (.shift unit a.amount), rest) := by
  have value : Token.number64? false a.digits = some (decimalValue a.digits : Int) :=
    Token.number64?_run a.run false rfl (by omega) (by exact_mod_cast small)
  rw [a.scan_lower ends, value, Option.map_some, amount]

theorem notRfc3339 : Rfc3339.scan (a.text ++ rest) = none :=
  Rfc3339.scan_of_fixedNumber (bind_of_fails (exactly_stops (by decide) (a.text_stops rfl)))

theorem notRfc2822 : Rfc2822.scan (a.text ++ rest) = none := by
  rw [text]
  cases a.back with
  | false | true => exact Rfc2822.scan_without_day (by decide) (by decide) (by decide)

theorem parse_text (base offset : Int) : parse (String.ofList a.text) base offset =
    if decimalValue a.digits < 2 ^ 63 then
      readAt base offset (Reading.ofShift (Shift.none.add unit a.amount)).local?
    else .error .notUnderstood := by
  have start : Stops isBlank (a.text ++ []) := a.text_stops rfl
  have lowerStart : Stops Token.isSeparator (a.text.map Char.toLower) := by
    rw [a.map_toLower]
    cases a.back with
    | false | true => exact stops_cons rfl
  have ending : Stops isBlank (a.text.reverse ++ []) := a.text_reverse_stops
  have notRfc3339 : Rfc3339.scan (a.text ++ []) = none := a.notRfc3339
  have notRfc2822 : Rfc2822.scan (a.text ++ []) = none := a.notRfc2822
  rw [List.append_nil] at start ending notRfc3339 notRfc2822
  split
  next small =>
    have scanned := a.scan_of_small small stops_nil
    rw [List.append_nil] at scanned
    rw [parse_of_reads start ending notRfc3339 notRfc2822
      (.cons (Token.stripStart_of_stops lowerStart) scanned Token.reads_nil)
      (Nat.succ_le_succ (Nat.zero_le _)) (List.cons_ne_nil _ _)]
    rfl
  next large =>
    have noValue : Token.number64? false a.digits = none :=
      Token.number64?_of_large a.run (Nat.not_lt.mp large)
    have scanned : Token.scan (a.text.map Char.toLower ++ []) = _ := a.scan_lower stops_nil
    rw [List.append_nil, noValue, Option.map_none] at scanned
    have unread : Token.tokens? (a.text.map Char.toLower) = none := by
      refine Token.tokens?_of_scan lowerStart (by simp [text]) fun token rest read => ?_
      rw [read] at scanned
      cases scanned
    rw [parse_eq_parseTokens start ending notRfc3339 notRfc2822 (List.cons_ne_nil _ _),
      parseTokens, unread]
    rfl

end SignedCount

end ConfigExpr.DatePhrase
