import Mathlib.Algebra.Ring.Int.Defs
import ConfigExpr.Proofs.DatePhrase.SignedCounts
import ConfigExpr.Proofs.DatePhrase.SpacedItems

/-!
Lists of signed numbers of units of fixed length, as in `+1 week -2 hours`. They are read as shifts
one after the other.
-/
namespace ConfigExpr.DatePhrase
open Calendar Text Scan

structure SignedAmount where
  back : Bool
  digits : List Char
  ascii : ∀ c ∈ digits, isAsciiDigit c = true
  filled : digits ≠ []
  small : decimalValue digits < 2 ^ 63
  word : List Char
  unit : TimeUnit
  named : TimeUnit.ofWord? (String.ofList (word.map Char.toLower)) = some unit
  length : Int
  lasts : unit.seconds? = some length

namespace SignedAmount

def amount (a : SignedAmount) : Int :=
  if a.back then -decimalValue a.digits else decimalValue a.digits

def seconds (a : SignedAmount) : Int :=
  a.amount * a.length

def text (a : SignedAmount) : List Char :=
  Token.signOf a.back :: (a.digits ++ ' ' :: a.word)

def token (a : SignedAmount) : Token :=
  .shift a.unit a.amount

variable (a : SignedAmount)

def count : SignedCount a.unit :=
  { a with }

theorem text_reverse_stops (rest : List Char) : Stops isBlank (a.text.reverse ++ rest) :=
  a.count.text_reverse_stops

theorem scan_lower {rest : List Char} (follows : Follows rest) :
    Token.scan (a.text.map Char.toLower ++ rest) = some (some a.token, rest) :=
  a.count.scan_of_small a.small (follows.stops rfl)

/-- The texts with single blanks between them. -/
def phrase (items : List SignedAmount) : List Char :=
  spaced (items.map text)

/-- The shift that a list adds up to, where every sum is clamped. -/
def shift (items : List SignedAmount) : Shift :=
  items.foldl (fun s a => s.add a.unit a.amount) .none

/-- The shift that a list adds up to, with no sum clamped. -/
def exactShift (items : List SignedAmount) : Shift :=
  items.foldl (fun s a => s.addExact a.unit a.amount) .none

structure Unclamped (items : List SignedAmount) : Prop where
  scaled : ∀ a ∈ items, IsInt64 (a.unit.factor * a.amount)
  totals : ∀ count ≤ items.length, (exactShift (items.take count)).Within64

theorem exactShift_concat (items : List SignedAmount) (a : SignedAmount) :
    exactShift (items ++ [a]) = (exactShift items).addExact a.unit a.amount := by
  rw [exactShift, List.foldl_append]
  rfl

theorem shift_eq_exactShift {items : List SignedAmount} (unclamped : Unclamped items) :
    shift items = exactShift items := by
  -- From the end, since the bounds are on the totals of what the list begins with.
  induction items using List.reverseRecOn with
  | nil => rfl
  | append_singleton items a ih =>
    obtain ⟨scaled, totals⟩ := unclamped
    have before : Unclamped items := by
      refine ⟨fun b member => scaled b (List.mem_append_left _ member), fun count short => ?_⟩
      have total := totals count (by rw [List.length_append]; omega)
      rwa [List.take_append_of_le_length short] at total
    have last : IsInt64 (a.unit.factor * a.amount) :=
      scaled a (List.mem_append_right _ List.mem_cons_self)
    have whole := totals _ (Nat.le_refl _)
    rw [List.take_length, exactShift_concat] at whole
    rw [exactShift_concat, shift, List.foldl_append, ← shift, ih before]
    exact Shift.add_eq_addExact last whole

theorem span_exactShift (items : List SignedAmount) :
    (exactShift items).span = (items.map seconds).sum := by
  induction items using List.reverseRecOn with
  | nil => rfl
  | append_singleton items a ih =>
    rw [exactShift_concat, Shift.span_addExact a.lasts, ih, List.map_append, List.sum_append,
      List.map_singleton, List.sum_singleton, seconds]

theorem foldlM_tokens (items : List SignedAmount) (r : Reading) :
    (items.map token).foldlM Reading.add r =
      some { r with shift := items.foldl (fun s a => s.add a.unit a.amount) r.shift } := by
  induction items generalizing r with
  | nil => rfl
  | cons a items ih =>
    rw [List.map_cons, List.foldlM_cons, List.foldl_cons]
    exact ih { r with shift := r.shift.add a.unit a.amount }

theorem ofTokens?_amounts (items : List SignedAmount) :
    Reading.ofTokens? (items.map token) = some (.ofShift (shift items)) :=
  foldlM_tokens items .empty

theorem hasFixedLength_shift (items : List SignedAmount) : (shift items).HasFixedLength := by
  induction items using List.reverseRecOn with
  | nil => exact ⟨rfl, rfl⟩
  | append_singleton items a ih =>
    rw [shift, List.foldl_append]
    exact Shift.hasFixedLength_add ih a.lasts

theorem parse_phrase {items : List SignedAmount} {base offset instant : Int}
    (denotes : parse (String.ofList (phrase items)) base offset = .ok instant) :
    isSupportedInstant (instant + offset) = true ∧ instant = base + (shift items).span := by
  cases items with
  | nil => cases denotes
  | cons a items =>
    have starts : phrase (a :: items) = Token.signOf a.back :: ((a.digits ++ ' ' :: a.word) ++
        (items.map text).flatMap (' ' :: ·)) := by
      rw [phrase, List.map_cons, spaced_cons]
      rfl
    have notRfc3339 : Rfc3339.scan (phrase (a :: items)) = none := by
      rw [starts]
      refine Rfc3339.scan_of_fixedNumber (bind_of_fails (exactly_stops (by decide) ?_))
      cases a.back with
      | false | true => exact stops_cons rfl
    have notRfc2822 : Rfc2822.scan (phrase (a :: items)) = none := by
      rw [starts]
      cases a.back with
      | false | true => exact Rfc2822.scan_without_day (by decide) (by decide) (by decide)
    rw [phrase, parse_spaced (List.cons_ne_nil _ _) (fun a _ => startsItem_sign a.back _)
      (fun a _ => a.text_reverse_stops) notRfc3339 notRfc2822
      (fun a _ rest follows => a.scan_lower follows), ofTokens?_amounts] at denotes
    exact Reading.resolve_ofShift (hasFixedLength_shift (a :: items)) denotes

end SignedAmount

end ConfigExpr.DatePhrase
