import ConfigExpr.DatePhrase.Parse
import ConfigExpr.Proofs.Outcome

/-!
How a reading becomes an instant. Apart from the choice of base and offset it works on seconds of
local time alone: the local seconds of the base give the local seconds of the result, and the offset
only leads into local time and out of it again. The way into local time is where a program can stop.
-/
namespace ConfigExpr.DatePhrase
open Calendar Text

theorem supportedInstant?_eq_some {shown seconds : Int} :
    supportedInstant? shown = some seconds ↔ isSupportedInstant shown = true ∧ shown = seconds := by
  rw [supportedInstant?, Option.ite_none_right_eq_some, Option.some.injEq]

theorem understood_eq_ok {α : Type} {x : Option α} {a : α} : understood x = .ok a ↔ x = some a := by
  cases x <;> simp [understood]

section Local
variable {instant zone here shown : Int} {denotes : Int → Option Int}

theorem localTime_eq_ok : localTime instant zone = .ok here ↔
    isSupportedInstant instant = true ∧ isSupportedInstant (instant + zone) = true ∧
      instant + zone = here := by
  cases supported : isSupportedInstant instant <;>
    cases supportedHere : isSupportedInstant (instant + zone) <;>
    simp [localTime, supported, supportedHere]

theorem localTime_of_supported (supported : isSupportedInstant instant = true)
    (supportedHere : isSupportedInstant (instant + zone) = true) :
    localTime instant zone = .ok (instant + zone) := by
  rw [localTime, if_pos supported, if_pos supportedHere]

theorem readAt_of_supported (supported : isSupportedInstant instant = true)
    (supportedHere : isSupportedInstant (instant + zone) = true) :
    readAt instant zone denotes = understood ((denotes (instant + zone)).map (· - zone)) := by
  rw [readAt, localTime_of_supported supported supportedHere, Outcome.ok_bind]
  cases denotes (instant + zone) with
  | none | some _ => rfl

theorem readAt_congr {other : Int → Option Int}
    (same : isSupportedInstant (instant + zone) = true →
      denotes (instant + zone) = other (instant + zone)) :
    readAt instant zone denotes = readAt instant zone other := by
  simp only [readAt, localTime]
  split
  next =>
    split
    next supportedHere => rw [Outcome.ok_bind, Outcome.ok_bind, same supportedHere]
    next => rfl
  next => rfl

theorem readAt_of_unsupported (unsupported : isSupportedInstant instant = false) :
    readAt instant zone denotes = .error .notUnderstood := by
  rw [readAt, localTime, unsupported]
  rfl

theorem readAt_of_beyond (supported : isSupportedInstant instant = true)
    (beyond : isSupportedInstant (instant + zone) = false) :
    readAt instant zone denotes = .error .noLocalTime := by
  rw [readAt, localTime, supported, beyond]
  rfl

theorem readAt_const (supported : isSupportedInstant instant = true) (zone shown : Int) :
    (readAt instant zone fun _ => some shown) =
      if isSupportedInstant (instant + zone) then .ok (shown - zone) else .error .noLocalTime := by
  cases supportedHere : isSupportedInstant (instant + zone) with
  | false => rw [readAt_of_beyond supported supportedHere]; rfl
  | true => rw [readAt_of_supported supported supportedHere]; rfl

theorem readAt_eq_ok {n : Int} : readAt instant zone denotes = .ok n ↔
    isSupportedInstant instant = true ∧ isSupportedInstant (instant + zone) = true ∧
      ∃ shown, denotes (instant + zone) = some shown ∧ shown - zone = n := by
  cases supported : isSupportedInstant instant with
  | false => simp [readAt_of_unsupported supported]
  | true =>
    cases supportedHere : isSupportedInstant (instant + zone) with
    | false => simp [readAt_of_beyond supported supportedHere]
    | true =>
      rw [readAt_of_supported supported supportedHere]
      cases denotes (instant + zone) with
      | none | some shown => simp [understood]

theorem readAt_eq_noLocalTime : readAt instant zone denotes = .error .noLocalTime ↔
    isSupportedInstant instant = true ∧ isSupportedInstant (instant + zone) = false := by
  cases supported : isSupportedInstant instant with
  | false => simp [readAt_of_unsupported supported]
  | true =>
    cases supportedHere : isSupportedInstant (instant + zone) with
    | false => simp [readAt_of_beyond supported supportedHere]
    | true =>
      rw [readAt_of_supported supported supportedHere]
      cases denotes (instant + zone) with
      | none | some shown => simp [understood]

theorem readAt_shift (edges : isSupportedInstant instant = isSupportedInstant (instant + zone)) :
    readAt instant zone denotes = (· - zone) <$> readAt (instant + zone) 0 denotes := by
  cases supported : isSupportedInstant instant with
  | false => rw [readAt_of_unsupported supported, readAt_of_unsupported (edges ▸ supported)]; rfl
  | true =>
    have supportedHere := edges ▸ supported
    have sameHere : isSupportedInstant (instant + zone + 0) = true :=
      (Int.add_zero _).symm ▸ supportedHere
    rw [readAt_of_supported supported supportedHere, readAt_of_supported supportedHere sameHere,
      Int.add_zero]
    cases denotes (instant + zone) with
    | none => rfl
    | some shown => exact congrArg (fun n => Except.ok (n - zone)) (Int.sub_zero shown).symm

end Local

namespace Reading
variable {r r' : Reading}

theorem resolve_of_unanchored (noOffset : r.offset = none) (noInstant : r.timestamp = none)
    (base offset : Int) : r.resolve base offset = readAt base offset r.local? := by
  rw [resolve, zone, noOffset, noInstant]
  rfl

theorem local?_of_unshifted (unshifted : r.shift.totalSeconds? = some 0) {here day : Int}
    (there : r.day? (dayOf here) = some day)
    (supported : isSupportedInstant (day * 86400 + r.clock (secondOfDay here)) = true) :
    r.local? here = some (day * 86400 + r.clock (secondOfDay here)) := by
  simp only [local?, there, unshifted, Option.bind_eq_bind, Option.bind_some, Int.add_zero]
  exact supportedInstant?_eq_some.mpr ⟨supported, rfl⟩

theorem isSupportedInstant_of_local? {here shown : Int} (denotes : r.local? here = some shown) :
    isSupportedInstant shown = true := by
  simp only [local?, Option.bind_eq_bind, Option.bind_eq_some_iff] at denotes
  obtain ⟨day, -, shift, -, denotes⟩ := denotes
  obtain ⟨supported, rfl⟩ := supportedInstant?_eq_some.mp denotes
  exact supported

end Reading

def Token.isAnchor : Token → Bool
  | .timestamp _ | .offset _ => true
  | _ => false

namespace Reading
variable {r r' : Reading}

theorem unanchored_of_add {token : Token} (free : token.isAnchor = false)
    (added : r.add token = some r') : r'.offset = r.offset ∧ r'.timestamp = r.timestamp := by
  cases token with
  | timestamp _ | offset _ => cases free
  | date year month day =>
    simp only [add, setDate, Option.ite_none_right_eq_some, Option.some.injEq] at added
    exact added.2 ▸ ⟨rfl, rfl⟩
  | time hour minute second half =>
    simp only [add, setTime, Option.bind_eq_bind, Option.bind_eq_some_iff,
      Option.ite_none_right_eq_some, Option.some.injEq] at added
    obtain ⟨_, -, -, rfl⟩ := added
    exact ⟨rfl, rfl⟩
  | weekday day direction =>
    simp only [add, setWeekday, Option.ite_none_right_eq_some, Option.some.injEq] at added
    exact added.2 ▸ ⟨rfl, rfl⟩
  | shift _ _ | ago | now | dayStart _ | monthEdge _ =>
    simp only [add, Option.some.injEq] at added
    exact added ▸ ⟨rfl, rfl⟩

theorem unanchored_of_foldlM {tokens : List Token} (free : ∀ token ∈ tokens, token.isAnchor = false)
    (read : tokens.foldlM add r = some r') : r'.offset = r.offset ∧ r'.timestamp = r.timestamp := by
  induction tokens generalizing r with
  | nil => exact Option.some.inj read ▸ ⟨rfl, rfl⟩
  | cons token rest ih =>
    simp only [List.foldlM_cons, Option.bind_eq_bind, Option.bind_eq_some_iff] at read
    obtain ⟨next, added, read⟩ := read
    have step := unanchored_of_add (free token List.mem_cons_self) added
    have run := ih (fun token member => free token (List.mem_cons_of_mem _ member)) read
    exact ⟨run.1.trans step.1, run.2.trans step.2⟩

end Reading

structure IsLocalPhrase (text : String) : Prop where
  notRfc3339 : Rfc3339.parse? (strip isBlank text.toList) = none
  notRfc2822 : Rfc2822.parse? (strip isBlank text.toList) = none
  unanchored : ∀ tokens, Token.tokens? ((strip isBlank text.toList).map Char.toLower) = some tokens →
    ∀ token ∈ tokens, token.isAnchor = false

namespace IsLocalPhrase
variable {text : String}

theorem parse_eq (phrase : IsLocalPhrase text) :
    (∀ base zone, parse text base zone = .error .notUnderstood) ∨
      ∃ r : Reading, ∀ base zone, parse text base zone = readAt base zone r.local? := by
  obtain ⟨notRfc3339, notRfc2822, unanchored⟩ := phrase
  simp only [parse]
  generalize strip isBlank text.toList = trimmed at notRfc3339 notRfc2822 unanchored
  cases trimmed with
  | nil => exact .inl fun _ _ => rfl
  | cons c rest =>
    simp only [notRfc3339, notRfc2822, parseTokens]
    cases scanned : Token.tokens? ((c :: rest).map Char.toLower) with
    | none => exact .inl fun _ _ => rfl
    | some tokens =>
      cases read : Reading.ofTokens? tokens with
      | none => exact .inl fun _ _ => by rw [understood, Outcome.ok_bind, read]; rfl
      | some r =>
        have free := Reading.unanchored_of_foldlM (unanchored tokens scanned) read
        refine .inr ⟨r, fun base zone => ?_⟩
        rw [understood, Outcome.ok_bind, read, understood, Outcome.ok_bind,
          r.resolve_of_unanchored free.1 free.2]

theorem parse_shift (phrase : IsLocalPhrase text) {base zone : Int}
    (edges : isSupportedInstant base = isSupportedInstant (base + zone)) :
    parse text base zone = (· - zone) <$> parse text (base + zone) 0 := by
  obtain nothing | ⟨r, means⟩ := phrase.parse_eq
  · rw [nothing, nothing]
    rfl
  · rw [means, means, readAt_shift edges]

theorem parse_utc (phrase : IsLocalPhrase text) (here : Int) :
    parse text here 0 = .error .notUnderstood ∨
      ∃ shown, parse text here 0 = .ok shown ∧ isSupportedInstant here = true ∧
        isSupportedInstant shown = true := by
  obtain nothing | ⟨r, means⟩ := phrase.parse_eq
  · exact .inl (nothing here 0)
  · rw [means]
    cases supported : isSupportedInstant here with
    | false => exact .inl (readAt_of_unsupported supported)
    | true =>
      have same : isSupportedInstant (here + 0) = true := (Int.add_zero here).symm ▸ supported
      rw [readAt_of_supported supported same]
      cases denotes : r.local? (here + 0) with
      | none => exact .inl rfl
      | some shown =>
        refine .inr ⟨shown, congrArg Except.ok (Int.sub_zero shown), rfl, ?_⟩
        exact Reading.isSupportedInstant_of_local? denotes

end IsLocalPhrase

end ConfigExpr.DatePhrase
