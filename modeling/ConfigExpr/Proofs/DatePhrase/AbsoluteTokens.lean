import ConfigExpr.DatePhrase.Reading

/-!
Absolute tokens, which give a date, a time of day, an offset or an instant. Each sets a part of the
reading of its own and none is given twice, so their order does not matter.
-/
namespace ConfigExpr.DatePhrase

/-- Tokens that give a date, a time of day, an offset or an instant. -/
def Token.isAbsolute : Token → Bool
  | .date .. | .time .. | .offset _ | .timestamp _ => true
  | _ => false

/-- Whether an absolute token gives something that there is. -/
def Token.isSound : Token → Bool
  | .date _ month day => 1 ≤ month && month ≤ 12 && 1 ≤ day && day ≤ 31
  | .time hour minute second half =>
    (Reading.hourOfDay? hour half).isSome && minute < 60 && second < 60
  | .offset seconds => seconds.natAbs < 86400
  | _ => true

namespace Reading

/-- Whether a reading does not have yet what an absolute token gives. -/
def isFree (r : Reading) : Token → Bool
  | .date .. => r.date.isNone
  | .time .. => r.time.isNone
  | .offset _ => r.offset.isNone
  | .timestamp _ => r.timestamp.isNone
  | _ => true

def put (r : Reading) : Token → Reading
  | .date year month day => { r with date := some ⟨year, month, day⟩ }
  | .time hour minute second half =>
    { r with time := some ((hourOfDay? hour half).getD 0 * 3600 + minute * 60 + second) }
  | .offset seconds => { r with offset := some seconds }
  | .timestamp seconds => { r with timestamp := some seconds }
  | _ => r

theorem add_eq {token : Token} (absolute : token.isAbsolute = true) (r : Reading) :
    r.add token = if token.isSound && r.isFree token then some (r.put token) else none := by
  cases token with
  | shift _ _ | ago | now | dayStart _ | monthEdge _ | weekday _ _ => cases absolute
  | date year month day => rfl
  | offset seconds =>
    rw [add, setOffset, Token.isSound, isFree, Bool.and_comm]
    rfl
  | timestamp seconds => rfl
  | time hour minute second half =>
    rw [add, setTime, Token.isSound, isFree, put]
    cases hourOfDay? hour half with
    | none => rfl
    | some hour => rfl

theorem put_apart {a b : Token} (first : a.isAbsolute = true) (second : b.isAbsolute = true)
    (r : Reading) :
    ((r.put a).isFree b = r.isFree b ∧ (r.put b).isFree a = r.isFree a ∧
      (r.put a).put b = (r.put b).put a) ∨
    ((r.put a).isFree b = false ∧ (r.put b).isFree a = false) := by
  cases a with
  | shift _ _ | ago | now | dayStart _ | monthEdge _ | weekday _ _ => cases first
  | date _ _ _ | time _ _ _ _ | offset _ | timestamp _ =>
    cases b with
    | shift _ _ | ago | now | dayStart _ | monthEdge _ | weekday _ _ => cases second
    | date _ _ _ | time _ _ _ _ | offset _ | timestamp _ =>
      simp only [isFree, put, Option.isNone_some, and_self, true_or, or_true]

theorem add_right_comm {a b : Token} (first : a.isAbsolute = true) (second : b.isAbsolute = true)
    (r : Reading) : (r.add a >>= fun r => r.add b) = (r.add b >>= fun r => r.add a) := by
  simp only [add_eq first, add_eq second, Option.bind_eq_bind]
  cases a.isSound with
  | false => cases b.isSound && r.isFree b <;> rfl
  | true =>
    cases b.isSound with
    | false => cases r.isFree a <;> rfl
    | true =>
      rcases put_apart first second r with ⟨kept, kept', same⟩ | ⟨taken, taken'⟩
      · cases has : r.isFree a <;> cases has' : r.isFree b <;> simp [has, has', kept, kept', same]
      · cases r.isFree a <;> cases r.isFree b <;> simp [taken, taken']

theorem foldlM_add_perm {tokens others : List Token} (perm : tokens.Perm others)
    (absolute : ∀ token ∈ tokens, token.isAbsolute = true) (r : Reading) :
    tokens.foldlM add r = others.foldlM add r := by
  -- For every reading, as tokens in front change the one that the others start from.
  induction perm generalizing r with
  | nil => rfl
  | cons token perm ih =>
    have rest := ih fun token member => absolute token (List.mem_cons_of_mem _ member)
    simp only [List.foldlM_cons, rest]
  | swap a b tokens =>
    have first := absolute b List.mem_cons_self
    have second := absolute a (List.mem_cons_of_mem _ List.mem_cons_self)
    simp only [List.foldlM_cons, ← bind_assoc, add_right_comm first second]
  | trans perm perm' ih ih' =>
    rw [ih absolute, ih' fun token member => absolute token (perm.mem_iff.mpr member)]

theorem ofTokens?_perm {tokens others : List Token} (perm : tokens.Perm others)
    (absolute : ∀ token ∈ others, token.isAbsolute = true) : ofTokens? tokens = ofTokens? others :=
  foldlM_add_perm perm (fun token member => absolute token (perm.mem_iff.mp member)) empty

end Reading

end ConfigExpr.DatePhrase
