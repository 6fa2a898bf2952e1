import ConfigExpr.DatePhrase.Parse
import ConfigExpr.Proofs.DatePhrase.BoundedReadings
import ConfigExpr.Proofs.Text.ByteCuts

/-!
The loop that reads a phrase by cutting tokens off its text. Every token takes at least one byte and
ends between two characters, so the loop needs no more rounds than the phrase has bytes, never cuts
outside its text, and comes to what is read from the characters.
-/
namespace ConfigExpr.DatePhrase
open Calendar Text Utf8

namespace Reading
variable {r r' : Reading} {text rest : List Char}

/-- Takes in the token at the start of a text, and what is left behind it. -/
def readToken? (r : Reading) (text : List Char) : Option (Reading × List Char) :=
  Token.scan text >>= fun taken =>
    taken.1 >>= fun token => (r.add token).map fun next => (next, taken.2)

theorem readToken?_eq_some (read : r.readToken? text = some (r', rest)) :
    ∃ front, front ≠ [] ∧ text = front ++ rest ∧ (r.IsHeld → r'.IsHeld) := by
  simp only [readToken?, Option.bind_eq_bind, Option.bind_eq_some_iff, Option.map_eq_some_iff,
    Prod.mk.injEq] at read
  obtain ⟨⟨token?, behind⟩, scanned, token, rfl, next, added, rfl, rfl⟩ := read
  obtain ⟨front, whole, filled, held⟩ := Token.scan_advances text _ _ scanned
  exact ⟨front, filled, whole, fun before => isHeld_of_add before held added⟩

def readTokens? (steps : Nat) (r : Reading) (text : List Char) : Option Reading :=
  Token.readAll steps text >>= fun tokens => tokens.foldlM add r

theorem readTokens?_of_nil (done : stripStart Token.isSeparator text = []) (steps : Nat)
    (r : Reading) : r.readTokens? steps text = some r := by
  rw [readTokens?, Token.readAll.eq_def]
  simp only [done]
  rfl

theorem readTokens?_succ (left : stripStart Token.isSeparator text = rest) (filled : rest ≠ [])
    (steps : Nat) (r : Reading) : r.readTokens? (steps + 1) text =
      r.readToken? rest >>= fun next => next.1.readTokens? steps next.2 := by
  rw [readTokens?, Token.readAll.eq_def]
  simp only [left, readToken?, readTokens?]
  obtain ⟨c, behind, rfl⟩ := List.exists_cons_of_ne_nil filled
  cases Token.scan (c :: behind) with
  | none => rfl
  | some taken =>
    obtain ⟨token?, behind⟩ := taken
    cases token? with
    | none => rfl
    | some token =>
      simp only [Option.bind_eq_bind, Option.bind_some, Option.bind_map, Function.comp_def,
        List.foldlM_cons]
      exact Option.bind_comm _ _

end Reading

namespace Bounded

/-- Takes in the token at the start of a text, and how many bytes it has. -/
def token (r : Reading) (text : List Char) : Bounded (Reading × Nat) :=
  match scan text with
  | none => .error .refused
  | some (token, rest) => do
    let r ← add r (← token)
    return (r, byteLength text - byteLength rest)

/-- Skips separators and takes in a token in each round, as long as there is any text. -/
def loop : (rounds : Nat) → Reading → List Char → Bounded Reading
  | rounds, r, text =>
    match stripStart Token.isSeparator text, rounds with
    | [], _ => .ok r
    | _, 0 => .error .unfinished
    | text, rounds + 1 => do
      let (r, taken) ← token r text
      match cut? taken text with
      | some rest => loop rounds r rest
      | none => .error .outside

/-- The instant of a text, with as many rounds as it has bytes. -/
def parse (text : String) (base offset : Int) : Bounded Int :=
  match strip isBlank text.toList with
  | [] => .error .refused
  | trimmed =>
    match Rfc3339.parse? trimmed with
    | some instant => .ok instant
    | none =>
      match Rfc2822.parse? trimmed with
      | some instant => .ok instant
      | none => do
        let r ← loop (Utf8.encode text).length Reading.empty (trimmed.map Char.toLower)
        resolve r base offset

section Tokens
variable {r r' : Reading} {text rest : List Char}

theorem token_eq (r : Reading) (text : List Char) :
    token r text = ofOption ((r.readToken? text).map fun next =>
      (next.1, byteLength text - byteLength next.2)) := by
  rw [token, scan_eq, Scan.map_apply, Reading.readToken?]
  cases Token.scan text with
  | none => rfl
  | some taken =>
    obtain ⟨token?, behind⟩ := taken
    cases token? with
    | none => rfl
    | some token =>
      simp only [Option.bind_some, ofOption, Outcome.ok_bind, add_eq, Option.bind_eq_bind]
      cases r.add token with
      | none | some _ => rfl

theorem token_of_none (refused : r.readToken? text = none) : token r text = .error .refused := by
  rw [token_eq, refused]
  rfl

theorem token_append {front : List Char} (read : r.readToken? (front ++ rest) = some (r', rest)) :
    token r (front ++ rest) = .ok (r', byteLength front) := by
  rw [token_eq, read, byteLength_append, Option.map_some, Nat.add_sub_cancel]
  rfl

theorem loop_of_nil (done : stripStart Token.isSeparator text = []) (rounds : Nat) (r : Reading) :
    loop rounds r text = .ok r := by
  rw [loop.eq_def]
  simp only [done]

theorem loop_of_none (left : stripStart Token.isSeparator text = rest) (filled : rest ≠ [])
    (refused : r.readToken? rest = none) (rounds : Nat) :
    loop (rounds + 1) r text = .error .refused := by
  obtain ⟨c, behind, rfl⟩ := List.exists_cons_of_ne_nil filled
  rw [loop.eq_def]
  simp only [left, token_of_none refused]
  rfl

theorem loop_append {front : List Char} (left : stripStart Token.isSeparator text = front ++ rest)
    (filled : front ≠ []) (read : r.readToken? (front ++ rest) = some (r', rest)) (rounds : Nat) :
    loop (rounds + 1) r text = loop rounds r' rest := by
  obtain ⟨c, behind, rfl⟩ := List.exists_cons_of_ne_nil filled
  rw [List.cons_append] at left
  rw [loop.eq_def]
  simp only [left]
  rw [← List.cons_append, token_append read, Outcome.ok_bind]
  simp only [cut?_append]

end Tokens

theorem loop_eq {rounds steps : Nat} {r : Reading} {text : List Char}
    (enough : byteLength text ≤ rounds) (many : text.length ≤ steps) :
    loop rounds r text = ofOption (r.readTokens? steps text) := by
  induction rounds generalizing steps r text with
  | zero =>
    obtain rfl : text = [] := by
      by_contra filled
      exact absurd (byteLength_pos filled) (Nat.not_lt.mpr enough)
    rw [loop_of_nil rfl, Reading.readTokens?_of_nil rfl]
    rfl
  | succ rounds ih =>
    have part : (stripStart Token.isSeparator text).Sublist text := List.dropWhile_sublist _
    cases left : stripStart Token.isSeparator text with
    | nil =>
      rw [loop_of_nil left, Reading.readTokens?_of_nil left]
      rfl
    | cons c behind =>
      rw [left] at part
      have filled : c :: behind ≠ [] := List.cons_ne_nil c behind
      obtain ⟨steps, rfl⟩ := Nat.exists_eq_add_one.mpr
        (Nat.lt_of_lt_of_le (Nat.lt_of_lt_of_le (Nat.succ_pos _) part.length_le) many)
      rw [Reading.readTokens?_succ left filled]
      cases read : r.readToken? (c :: behind) with
      | none =>
        rw [loop_of_none left filled read]
        rfl
      | some next =>
        obtain ⟨r', rest⟩ := next
        obtain ⟨front, taken, whole, -⟩ := Reading.readToken?_eq_some read
        rw [whole] at left read part
        -- The token takes something of both measures, so one round and one step less are enough.
        have length := part.length_le
        have lengthTaken := List.length_pos_iff.mpr taken
        have bytes := byteLength_le_of_sublist part
        have bytesTaken := byteLength_pos taken
        rw [List.length_append] at length
        rw [byteLength_append] at bytes
        have onward : loop rounds r' rest = ofOption (r'.readTokens? steps rest) :=
          ih (by omega) (by omega)
        rw [loop_append left taken read, onward]
        rfl

theorem isHeld_of_loop {rounds : Nat} {r r' : Reading} {text : List Char} (held : r.IsHeld)
    (read : loop rounds r text = .ok r') : r'.IsHeld := by
  induction rounds generalizing r text with
  | zero =>
    cases left : stripStart Token.isSeparator text with
    | nil =>
      rw [loop_of_nil left] at read
      exact Except.ok.inj read ▸ held
    | cons c behind =>
      rw [loop.eq_def] at read
      simp only [left, reduceCtorEq] at read
  | succ rounds ih =>
    cases left : stripStart Token.isSeparator text with
    | nil =>
      rw [loop_of_nil left] at read
      exact Except.ok.inj read ▸ held
    | cons c behind =>
      have filled : c :: behind ≠ [] := List.cons_ne_nil c behind
      cases taken : r.readToken? (c :: behind) with
      | none =>
        rw [loop_of_none left filled taken] at read
        cases read
      | some next =>
        obtain ⟨next, rest⟩ := next
        obtain ⟨front, advances, whole, keeps⟩ := Reading.readToken?_eq_some taken
        rw [whole] at left taken
        rw [loop_append left advances taken] at read
        exact ih (keeps held) read

theorem parseTokens_eq (text : List Char) (base offset : Int) : parseTokens text base offset =
    (understood
        (Reading.empty.readTokens? (text.map Char.toLower).length (text.map Char.toLower)) >>=
      fun r => r.resolve base offset) := by
  rw [parseTokens, Reading.readTokens?, ← Token.tokens?]
  cases Token.tokens? (text.map Char.toLower) with
  | none | some _ => rfl

theorem parse_eq (text : String) (base : Int) {offset : Int} (small : offset.natAbs < 86400) :
    parse text base offset = ofResult (DatePhrase.parse text base offset) := by
  have part := strip_sublist isBlank text.toList
  rw [parse, DatePhrase.parse]
  generalize strip isBlank text.toList = trimmed at part ⊢
  cases trimmed with
  | nil => rfl
  | cons c rest =>
    dsimp only
    cases Rfc3339.parse? (c :: rest) with
    | some instant => rfl
    | none =>
      cases Rfc2822.parse? (c :: rest) with
      | some instant => rfl
      | none =>
        have enough : byteLength ((c :: rest).map Char.toLower) ≤ (Utf8.encode text).length := by
          rw [byteLength_map_toLower]
          exact byteLength_le_of_sublist part
        have read :
            loop (Utf8.encode text).length Reading.empty ((c :: rest).map Char.toLower) = _ :=
          loop_eq enough (Nat.le_refl _)
        dsimp only
        rw [parseTokens_eq, read, ← ofResult_understood]
        refine ofResult_bind fun r found => resolve_eq ?_ base small
        have taken := congrArg ofOption (understood_eq_ok.mp found)
        exact isHeld_of_loop Reading.isHeld_empty (read.trans taken)

end Bounded

/-- In every state a token is refused or takes at least one byte, up to the end of a character of
the text. So no text takes more rounds than it has bytes, none is cut elsewhere, and neither tokens
nor readings nor whole phrases meet a number that does not fit its type: what comes out is what is
read without any bounds. A program that reads a phrase stops only where the calendar has no local
time for the base. -/
theorem tokens_advance_without_fault {r : Reading} (held : r.IsHeld) (base : Int) {offset : Int}
    (small : offset.natAbs < 86400) :
    (∀ text,
      Bounded.token r text = .error .refused ∧ r.readToken? text = none ∨
      ∃ r' n rest, Bounded.token r text = .ok (r', n) ∧ r.readToken? text = some (r', rest) ∧
        r'.IsHeld ∧ 1 ≤ n ∧ n ≤ byteLength text ∧ cut? n text = some rest) ∧
    (∀ text rounds, byteLength text ≤ rounds →
      Bounded.loop rounds r text = Bounded.ofOption (r.readTokens? text.length text)) ∧
    Bounded.resolve r base offset = Bounded.ofResult (r.resolve base offset) ∧
    (Bounded.resolve r base offset = .error .noLocalTime ↔
      isSupportedInstant (r.timestamp.getD base) = true ∧
        isSupportedInstant (r.timestamp.getD base + r.zone offset) = false) ∧
    ∀ phrase, Bounded.parse phrase base offset =
      Bounded.ofResult (parse phrase base offset) := by
  refine ⟨fun text => ?_, fun text rounds enough => Bounded.loop_eq enough (Nat.le_refl _),
    Bounded.resolve_eq held base small, Bounded.resolve_eq_noLocalTime held base small,
    fun phrase => Bounded.parse_eq phrase base small⟩
  cases read : r.readToken? text with
  | none => exact .inl ⟨Bounded.token_of_none read, rfl⟩
  | some next =>
    obtain ⟨front, filled, rfl, keeps⟩ := Reading.readToken?_eq_some read
    refine .inr ⟨next.1, byteLength front, next.2, Bounded.token_append read, rfl, keeps held,
      byteLength_pos filled, ?_, cut?_eq_some.mpr ⟨front, rfl, rfl⟩⟩
    rw [byteLength_append]
    exact Nat.le_add_right _ _

theorem tokens_advance_without_fault_clamped :
    let r : Reading := { Reading.empty with shift := { Shift.none with days := -2 ^ 63 } }
    let turned : Reading := { Reading.empty with shift := { Shift.none with days := 2 ^ 63 - 1 } }
    r.IsHeld ∧ (-86399 : Int).natAbs < 86400 ∧
      Bounded.loop 3 r "ago".toList = .ok turned ∧
      Bounded.resolve r 0 (-86399) = .error .refused ∧
      Bounded.parse "+9223372036854775807 days ago" 0 (-86399) = .error .refused ∧
      Bounded.parse "2 weeks ago" 0 (-86399) = .ok (-1209600) := by
  intro r turned
  have held : r.IsHeld := ⟨Reading.isHeld_empty.day, Reading.isHeld_empty.offset,
    Reading.isHeld_empty.weekday, by decide⟩
  have small : (-86399 : Int).natAbs < 86400 := by decide
  obtain ⟨-, loops, resolves, -, parses⟩ := tokens_advance_without_fault held 0 small
  refine ⟨held, small, ?_, ?_, ?_, ?_⟩
  · rw [loops _ 3 (by decide)]
    rfl
  · rw [resolves]
    rfl
  · rw [parses]
    decide +kernel
  · rw [parses]
    decide +kernel

end ConfigExpr.DatePhrase
