import ConfigExpr.Proofs.DatePhrase.Scanning

/-!
What scanners take from any text. A property of what is taken and of the value is followed through
sequences, choices and repetitions, whatever comes behind.
-/
namespace ConfigExpr.Scan
open Text
variable {α β : Type} {x : Scan α} {f : α → Scan β} {p : Char → Bool} {a : α} {c : Char}
  {P Q : List Char → α → Prop}

/-- Whenever a scanner takes something, that stands in front of the rest and has a property together
with the value. -/
def Takes (x : Scan α) (P : List Char → α → Prop) : Prop :=
  ∀ text a rest, x text = some (a, rest) → ∃ piece, text = piece ++ rest ∧ P piece a

theorem Takes.mono (takes : Takes x P) (weaker : ∀ piece a, P piece a → Q piece a) : Takes x Q := by
  intro text a rest taken
  obtain ⟨piece, whole, holds⟩ := takes text a rest taken
  exact ⟨piece, whole, weaker piece a holds⟩

theorem takes_pure (holds : P [] a) : Takes (pure a) P := by
  intro text b rest taken
  obtain ⟨rfl, rfl⟩ := Prod.mk.inj (Option.some.inj taken)
  exact ⟨[], rfl, holds⟩

theorem Takes.bind {Q : List Char → β → Prop} (first : Takes x P)
    (next : ∀ piece a, P piece a → Takes (f a) fun more b => Q (piece ++ more) b) :
    Takes (x >>= f) Q := by
  intro text b rest taken
  obtain ⟨a, behind, takenFirst, takenNext⟩ := bind_eq_some.mp taken
  obtain ⟨piece, rfl, holds⟩ := first text a behind takenFirst
  obtain ⟨more, rfl, both⟩ := next piece a holds behind b rest takenNext
  exact ⟨piece ++ more, (List.append_assoc piece more rest).symm, both⟩

theorem Takes.bind_congr {g : α → Scan β} (takes : Takes x P)
    (same : ∀ piece a, P piece a → f a = g a) : x >>= f = x >>= g := by
  funext text
  change (x text).bind (fun taken => f taken.1 taken.2) =
    (x text).bind fun taken => g taken.1 taken.2
  cases taken : x text with
  | none => rfl
  | some read =>
    obtain ⟨piece, -, holds⟩ := takes text read.1 read.2 taken
    exact congrFun (same piece read.1 holds) read.2

theorem Takes.opt (takes : Takes x P) : Takes (opt x) fun piece value =>
    (value = none ∧ piece = []) ∨ ∃ a, value = some a ∧ P piece a := by
  intro text value rest taken
  rw [Scan.opt] at taken
  split at taken
  next a behind takenHere =>
    obtain ⟨rfl, rfl⟩ := Prod.mk.inj (Option.some.inj taken)
    obtain ⟨piece, whole, holds⟩ := takes text a behind takenHere
    exact ⟨piece, whole, .inr ⟨a, rfl, holds⟩⟩
  next =>
    obtain ⟨rfl, rfl⟩ := Prod.mk.inj (Option.some.inj taken)
    exact ⟨[], rfl, .inl ⟨rfl, rfl⟩⟩

theorem Takes.optional {R : List Char → Prop} (absent : R []) (takes : Takes x fun piece _ => R piece) :
    Takes (Scan.opt x) fun piece _ => R piece := by
  refine takes.opt.mono fun piece _ taken => ?_
  obtain ⟨-, rfl⟩ | ⟨_, -, holds⟩ := taken
  · exact absent
  · exact holds

theorem takes_firstOf {scans : List (Scan α)} (each : ∀ x ∈ scans, Takes x P) :
    Takes (firstOf scans) P := by
  intro text a rest taken
  obtain ⟨x, member, takenHere⟩ := List.exists_of_findSome?_eq_some taken
  exact each x member text a rest takenHere

theorem map_apply (f : α → β) (text : List Char) :
    (f <$> x) text = (x text).bind fun taken => some (f taken.1, taken.2) := rfl

theorem firstOf_map (f : α → β) (scans : List (Scan α)) :
    firstOf (scans.map (f <$> ·)) = f <$> firstOf scans := by
  funext text
  change (scans.map (f <$> ·)).findSome? (fun x => x text) =
    (scans.findSome? fun x => x text).bind fun taken => some (f taken.1, taken.2)
  induction scans with
  | nil => rfl
  | cons x rest ih =>
    rw [List.map_cons, List.findSome?_cons, List.findSome?_cons, ih, map_apply]
    cases x text with
    | none | some _ => rfl

theorem takes_char : Takes (char c) fun piece _ => piece = [c] :=
  fun _ _ _ taken => ⟨[c], char_eq_some taken, rfl⟩

theorem takes_one : Takes (one p) fun piece c => piece = [c] ∧ p c = true := by
  intro text c rest taken
  obtain ⟨whole, holds⟩ := one_eq_some taken
  exact ⟨[c], whole, rfl, holds⟩

theorem takes_run : Takes (run p) fun piece taken => taken = piece ∧ ∀ c ∈ piece, p c = true := by
  intro text piece rest taken
  obtain ⟨rfl, rfl⟩ := Prod.mk.inj (Option.some.inj taken)
  exact ⟨_, List.takeWhile_append_dropWhile.symm, rfl,
    fun c member => List.all_eq_true.mp List.all_takeWhile c member⟩

theorem takes_some1 : Takes (some1 p) fun piece taken =>
    taken = piece ∧ piece ≠ [] ∧ ∀ c ∈ piece, p c = true := by
  intro text piece rest taken
  obtain ⟨whole, filled, all⟩ := some1_eq_some taken
  exact ⟨piece, whole, rfl, filled, all⟩

structure IsRun (p : Char → Bool) (least most : Nat) (text : List Char) : Prop where
  long : least ≤ text.length
  short : text.length ≤ most
  all : ∀ c ∈ text, p c = true

theorem IsRun.mono {least most low high : Nat} {text : List Char} (run : IsRun p least most text)
    (lower : low ≤ least) (higher : most ≤ high) : IsRun p low high text :=
  ⟨Nat.le_trans lower run.long, Nat.le_trans run.short higher, run.all⟩

theorem takes_upTo {most : Nat} :
    Takes (upTo most p) fun piece taken => taken = piece ∧ IsRun p 1 most piece := by
  intro text piece rest taken
  obtain ⟨whole, filled, short, all⟩ := upTo_eq_some taken
  exact ⟨piece, whole, rfl, List.length_pos_iff.mpr filled, short, all⟩

theorem takes_exactly {count : Nat} :
    Takes (exactly count p) fun piece taken => taken = piece ∧ IsRun p count count piece := by
  intro text piece rest taken
  obtain ⟨whole, length, all⟩ := exactly_eq_some taken
  exact ⟨piece, whole, rfl, Nat.le_of_eq length.symm, Nat.le_of_eq length, all⟩

theorem takes_value {value? : Option α} :
    Takes (value value?) fun piece a => piece = [] ∧ value? = some a := by
  intro text a rest taken
  obtain ⟨a, known, same⟩ := Option.map_eq_some_iff.mp taken
  obtain ⟨rfl, rfl⟩ := Prod.mk.inj same
  exact ⟨[], rfl, rfl, known⟩

theorem takes_require {condition : Bool} :
    Takes (require condition) fun piece _ => piece = [] ∧ condition = true := by
  intro text _ rest taken
  obtain ⟨holds, same⟩ := Option.ite_none_right_eq_some.mp taken
  obtain ⟨-, rfl⟩ := Prod.mk.inj (Option.some.inj same)
  exact ⟨[], rfl, rfl, holds⟩

theorem takes_wordEnd : Takes wordEnd fun piece _ => piece = [] := by
  intro text _ rest taken
  refine ⟨[], ?_, rfl⟩
  cases text with
  | nil => cases taken; rfl
  | cons c behind =>
    simp only [wordEnd, Option.ite_none_left_eq_some] at taken
    exact (Prod.mk.inj (Option.some.inj taken.2)).2

end ConfigExpr.Scan
