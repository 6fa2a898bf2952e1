import ConfigExpr.CommandLine.Run
import ConfigExpr.Proofs.Outcome

/-!
What a command line gives to its repeatable options. Options are read from left to right, and the
value of one may still be pending when the next is looked at; still each repeatable option gets
exactly the values that stand in the arguments for it, in their order, whatever stands between them.
-/
namespace ConfigExpr.CommandLine
open ConfigExpr.Outcome

/-- The values that arguments give to a long option: what is attached to it or stands behind it.
After `--` nothing is an option. -/
def optionValues (flag : Flag) : List String → List String
  | [] => []
  | argument :: rest =>
    match form argument with
    | .escape => []
    | .long name value =>
      (if name = flag.name then (value.or rest.head?).toList else []) ++ optionValues flag rest
    | .short _ | .plain => optionValues flag rest

section Values
variable {flag : Flag} {argument : String} {rest : List String}

theorem optionValues_escape (shape : form argument = .escape) :
    optionValues flag (argument :: rest) = [] := by
  simp only [optionValues, shape]

theorem optionValues_long {name : String} {value : Option String}
    (shape : form argument = .long name value) :
    optionValues flag (argument :: rest) =
      (if name = flag.name then (value.or rest.head?).toList else []) ++
        optionValues flag rest := by
  simp only [optionValues, shape]

theorem optionValues_short {letters : List Char} (shape : form argument = .short letters) :
    optionValues flag (argument :: rest) = optionValues flag rest := by
  simp only [optionValues, shape]

theorem optionValues_plain (shape : form argument = .plain) :
    optionValues flag (argument :: rest) = optionValues flag rest := by
  simp only [optionValues, shape]

end Values

def Evaluation.collected (e : Evaluation) : Flag → List String
  | .allow => e.allow
  | .deny => e.deny
  | _ => []

/-- The value that a pending option still gives to an option, with the arguments ahead. -/
def owed (flag : Flag) (pending : Option Pending) (ahead : List String) : List String :=
  match pending with
  | none => []
  | some (.waiting other) => if other = flag then ahead.head?.toList else []
  | some (.valued other value) => if other = flag then [value] else []

namespace Flag

theorem eq_allow_or_deny {flag : Flag} (repeatable : flag.isRepeatable = true) :
    flag = .allow ∨ flag = .deny := by
  cases flag <;> simp [isRepeatable] at repeatable ⊢

theorem name_injective {flag other : Flag} (same : flag.name = other.name) : flag = other := by
  revert same
  cases flag <;> cases other <;> decide

theorem ofName?_eq_some {flag : Flag} {name : String} (named : ofName? name = some flag) :
    flag.name = name := by
  have found := List.find?_some named
  exact eq_of_beq found

theorem ofLetter?_eq_some {flag : Flag} {c : Char} (named : ofLetter? c = some flag) :
    flag.letter? = some c := by
  have found := List.find?_some named
  exact eq_of_beq found

end Flag

section Collecting
variable {e e' : Evaluation} {pending pending' : Option Pending} {flag other : Flag}
  {value name : String} {args : List String}

theorem collected_assign (repeatable : flag.isRepeatable = true)
    (assigned : e.assign other value = .ok e') :
    e'.collected flag = e.collected flag ++ if other = flag then [value] else [] := by
  rcases flag.eq_allow_or_deny repeatable with rfl | rfl <;> cases other with
  | help => cases assigned
  | params | pretty | allow | deny =>
    obtain rfl := Except.ok.inj assigned
    simp [Evaluation.collected]
  | maxDepth | now =>
    obtain ⟨n, -, same⟩ := bind_eq_ok.mp assigned
    obtain rfl := Except.ok.inj same
    simp [Evaluation.collected]
  | timezone =>
    rw [Evaluation.assign] at assigned
    split at assigned
    · obtain rfl := Except.ok.inj assigned
      simp [Evaluation.collected]
    · cases assigned

theorem collected_set (repeatable : flag.isRepeatable = true)
    (assigned : e.set other value = .ok e') :
    e'.collected flag = e.collected flag ++ if other = flag then [value] else [] := by
  rw [Evaluation.set] at assigned
  split at assigned
  · cases assigned
  · exact collected_assign repeatable assigned

theorem collected_settle (repeatable : flag.isRepeatable = true)
    (settled : settle e pending = .ok e') (ahead : List String) :
    e'.collected flag = e.collected flag ++ owed flag pending ahead := by
  match pending with
  | none =>
    obtain rfl := Except.ok.inj settled
    exact (List.append_nil _).symm
  | some (.waiting other) => cases settled
  | some (.valued other value) => exact collected_set repeatable settled

theorem collected_settleAndSet (repeatable : flag.isRepeatable = true)
    (done : settleAndSet e pending other value = .ok e') (ahead : List String) :
    e'.collected flag =
      e.collected flag ++ owed flag pending ahead ++ if other = flag then [value] else [] := by
  obtain ⟨settled, first, second⟩ := bind_eq_ok.mp done
  rw [collected_set repeatable second, collected_settle repeatable first ahead]

theorem collected_readFile (repeatable : flag.isRepeatable = true)
    (done : readFile e pending name = .ok e') (ahead : List String) :
    e'.collected flag = e.collected flag ++ owed flag pending ahead := by
  rw [readFile] at done
  split at done
  · cases done
  · obtain ⟨settled, first, rfl⟩ := map_eq_ok.mp done
    rw [← collected_settle repeatable first ahead]
    rcases flag.eq_allow_or_deny repeatable with rfl | rfl <;> rfl

theorem collected_readFiles (repeatable : flag.isRepeatable = true)
    (done : readFiles e pending args = .ok e') (ahead : List String) :
    e'.collected flag = e.collected flag ++ owed flag pending ahead := by
  induction args generalizing e pending with
  | nil => exact collected_settle repeatable done ahead
  | cons name rest ih =>
    obtain ⟨read, first, second⟩ := bind_eq_ok.mp done
    rw [ih second, collected_readFile repeatable first ahead]
    exact List.append_nil _

theorem collected_attached (repeatable : flag.isRepeatable = true)
    (done : (settleAndSet e pending other value).map (fun e => (e, none)) = .ok (e', pending'))
    (ahead behind : List String) :
    e'.collected flag ++ owed flag pending' behind =
      e.collected flag ++ owed flag pending ahead ++ if other = flag then [value] else [] := by
  obtain ⟨next, set, same⟩ := map_eq_ok.mp done
  obtain ⟨rfl, rfl⟩ := Prod.mk.inj same
  rw [← collected_settleAndSet repeatable set ahead]
  exact List.append_nil _

theorem collected_announced (repeatable : flag.isRepeatable = true)
    (done : (settle e pending).map (fun e => (e, some (.waiting other))) = .ok (e', pending'))
    (ahead behind : List String) :
    e'.collected flag ++ owed flag pending' behind =
      e.collected flag ++ owed flag pending ahead ++
        if other = flag then behind.head?.toList else [] := by
  obtain ⟨next, settled, same⟩ := map_eq_ok.mp done
  obtain ⟨rfl, rfl⟩ := Prod.mk.inj same
  rw [← collected_settle repeatable settled ahead, owed]

theorem collected_readLetters (repeatable : flag.isRepeatable = true) {letters : List Char}
    (started : letters = [] → pending = none)
    (done : readLetters e pending letters = .ok (e', pending')) (ahead behind : List String) :
    e'.collected flag ++ owed flag pending' behind =
      e.collected flag ++ owed flag pending ahead := by
  induction letters generalizing e pending with
  | nil =>
    obtain ⟨rfl, rfl⟩ := Prod.mk.inj (Except.ok.inj done)
    rw [started rfl]
    rfl
  | cons c rest ih =>
    rw [readLetters] at done
    split at done
    · cases done
    next other named =>
      have short : other ≠ flag := by
        rintro rfl
        have letter := Flag.ofLetter?_eq_some named
        rcases other.eq_allow_or_deny repeatable with rfl | rfl <;> cases letter
      split at done
      · obtain ⟨next, set, read⟩ := bind_eq_ok.mp done
        rw [ih (fun _ => rfl) read, collected_settleAndSet repeatable set ahead, if_neg short]
        exact (List.append_nil _).trans (List.append_nil _)
      · split at done
        · rw [collected_announced repeatable done ahead, if_neg short, List.append_nil]
        · rw [collected_attached repeatable done ahead, if_neg short, List.append_nil]
        · rw [collected_attached repeatable done ahead, if_neg short, List.append_nil]

theorem collected_readLong (repeatable : flag.isRepeatable = true) {value : Option String}
    (done : readLong e pending name value = .ok (e', pending')) (ahead behind : List String) :
    e'.collected flag ++ owed flag pending' behind =
      e.collected flag ++ owed flag pending ahead ++
        if name = flag.name then (value.or behind.head?).toList else [] := by
  rw [readLong] at done
  split at done
  · cases done
  next other named =>
    have same : name = flag.name ↔ other = flag := by
      rw [← Flag.ofName?_eq_some named]
      exact ⟨Flag.name_injective, congrArg Flag.name⟩
    simp only [same]
    split at done
    · cases done
    next switch =>
      have notThis : other ≠ flag := by
        rintro rfl
        rcases other.eq_allow_or_deny repeatable with rfl | rfl <;> cases switch
      rw [collected_attached repeatable done ahead, if_neg notThis, if_neg notThis]
    · exact collected_attached repeatable done ahead behind
    · exact collected_announced repeatable done ahead behind

theorem collected_readPlain (repeatable : flag.isRepeatable = true) {argument : String}
    (done : readPlain e pending argument = .ok (e', pending')) (behind : List String) :
    e'.collected flag ++ owed flag pending' behind =
      e.collected flag ++ owed flag pending (argument :: behind) := by
  match pending with
  | some (.waiting other) =>
    obtain ⟨rfl, rfl⟩ := Prod.mk.inj (Except.ok.inj done)
    rfl
  | none | some (.valued other value) =>
    obtain ⟨next, read, same⟩ := map_eq_ok.mp done
    obtain ⟨rfl, rfl⟩ := Prod.mk.inj same
    rw [← collected_readFile repeatable read (argument :: behind)]
    exact List.append_nil _

theorem ne_nil_of_form {argument : String} {letters : List Char}
    (short : form argument = .short letters) : letters ≠ [] := by
  rw [form] at short
  split at short
  · cases short
  · dsimp only at short
    split at short <;> cases short
  · obtain rfl := ArgumentForm.short.inj short
    exact List.cons_ne_nil _ _
  · cases short

theorem collected_readEvaluation (repeatable : flag.isRepeatable = true)
    (done : readEvaluation e pending args = .ok e') :
    e'.collected flag = e.collected flag ++ owed flag pending args ++ optionValues flag args := by
  induction args generalizing e pending with
  | nil => rw [collected_settle repeatable done [], optionValues, List.append_nil]
  | cons argument rest ih =>
    rw [readEvaluation] at done
    split at done
    next shape =>
      rw [collected_readFiles repeatable done (argument :: rest), optionValues_escape shape,
        List.append_nil]
    next name value shape =>
      obtain ⟨⟨next, pending'⟩, read, done⟩ := bind_eq_ok.mp done
      rw [ih done, collected_readLong repeatable read (argument :: rest), optionValues_long shape,
        List.append_assoc]
    next letters shape =>
      obtain ⟨⟨next, pending'⟩, read, done⟩ := bind_eq_ok.mp done
      have started : letters = [] → pending = none :=
        fun empty => absurd empty (ne_nil_of_form shape)
      rw [ih done, collected_readLetters repeatable started read (argument :: rest),
        optionValues_short shape]
    next shape =>
      obtain ⟨⟨next, pending'⟩, read, done⟩ := bind_eq_ok.mp done
      rw [ih done, collected_readPlain repeatable read, optionValues_plain shape]

end Collecting

theorem readHelp_ne_ok {α : Type} {known : List (String × Char)} {argument : String} {a : α} :
    readHelp known argument ≠ .ok a := by
  intro done
  rw [readHelp] at done
  split at done
  · split at done <;> cases done
  · split at done <;> cases done
  · cases done

theorem readListing_ne_evaluate {args : List String} {given : Evaluation} :
    readListing args ≠ .ok (.evaluate given) := by
  intro done
  rw [readListing.eq_def] at done
  split at done
  · cases done
  · cases done
  · cases done
  · exact readHelp_ne_ok done

theorem readTopic_ne_evaluate {args : List String} {given : Evaluation} :
    readTopic args ≠ .ok (.evaluate given) := by
  intro done
  rw [readTopic.eq_def] at done
  split at done
  · cases done
  · split at done
    · split at done <;> cases done
    · cases done

theorem readEscaped_ne_ok {args : List String} {command : Command} :
    readEscaped args ≠ .ok command := by
  intro done
  rw [readEscaped.eq_def] at done
  split at done
  · cases done
  · split at done <;> cases done

theorem parse_eq_evaluate {args : List String} {given : Evaluation}
    (parsed : parse args = .ok (.evaluate given)) :
    ∃ rest, args = "evaluate" :: rest ∧ readEvaluation .empty none rest = .ok given := by
  rw [parse] at parsed
  split at parsed
  next command done =>
    obtain rfl := Except.ok.inj parsed
    rw [readCommand.eq_def] at done
    split at done
    · cases done
    · obtain ⟨e, read, same⟩ := map_eq_ok.mp done
      obtain rfl := Command.evaluate.inj same
      exact ⟨_, rfl, read⟩
    · exact (readListing_ne_evaluate done).elim
    · exact (readTopic_ne_evaluate done).elim
    · split at done
      · cases done
      · exact (readEscaped_ne_ok done).elim
      · exact (readHelp_ne_ok done).elim
  · cases parsed
  · cases parsed

theorem collected_parse (flag : Flag) (repeatable : flag.isRepeatable = true) {args : List String}
    {given : Evaluation} (parsed : parse args = .ok (.evaluate given)) :
    given.collected flag = optionValues flag args := by
  obtain ⟨rest, rfl, read⟩ := parse_eq_evaluate parsed
  have word : form "evaluate" = .plain := rfl
  rw [collected_readEvaluation repeatable read, optionValues, word]
  rcases flag.eq_allow_or_deny repeatable with rfl | rfl <;> rfl

end ConfigExpr.CommandLine
