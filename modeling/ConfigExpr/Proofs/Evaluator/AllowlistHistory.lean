import ConfigExpr.Evaluator.Eval
import Mathlib.Data.List.Induction
import Mathlib.Data.Nat.Find

/-!
What a history of changes leaves of an allowlist. A name is listed if it was let in and not denied
since, and the names stand in the order in which each was let in for the last time. So allowing a
name that is listed keeps its place, and a name that was denied and is allowed again comes last.
-/
namespace ConfigExpr

namespace Allowlist

inductive Change where
  | allow (name : String)
  | deny (name : String)
deriving DecidableEq, Repr

def Change.name : Change → String
  | .allow name | .deny name => name

def change (names : Allowlist) : Change → Allowlist
  | .allow name => names.allow name
  | .deny name => names.deny name

/-- The allowlist after changes, the earliest first. -/
def after (names : Allowlist) (history : List Change) : Allowlist :=
  history.foldl change names

variable {names : Allowlist} {history : List Change} {c : Change} {name : String} {place : Nat}

theorem after_append (first second : List Change) :
    names.after (first ++ second) = (names.after first).after second :=
  List.foldl_append

theorem after_concat : names.after (history ++ [c]) = (names.after history).change c :=
  after_append history [c]

theorem ofList_eq_after (start : List String) : ofList start = after [] (start.map .allow) := by
  rw [ofList, after, List.foldl_map]
  rfl

theorem allow_of_mem (listed : name ∈ names) : names.allow name = names :=
  if_pos (List.contains_iff_mem.mpr listed)

theorem allow_of_not_mem (fresh : name ∉ names) : names.allow name = names ++ [name] :=
  if_neg fun present => fresh (List.contains_iff_mem.mp present)

theorem deny_of_not_mem (absent : name ∉ names) : names.deny name = names :=
  List.filter_eq_self.mpr fun other listed => by
    rw [bne_iff_ne]
    rintro rfl
    exact absent listed

theorem allow_deny (names : Allowlist) (name : String) :
    (names.deny name).allow name = names.deny name ++ [name] :=
  allow_of_not_mem fun listed => ((mem_deny names name name).mp listed).2 rfl

def lastChange? (history : List Change) (name : String) : Option Change :=
  history.reverse.find? fun c => c.name == name

theorem lastChange?_concat :
    lastChange? (history ++ [c]) name =
      if c.name = name then some c else lastChange? history name := by
  rw [lastChange?, List.reverse_append, List.reverse_singleton, List.singleton_append,
    List.find?_cons, lastChange?]
  by_cases same : c.name = name
  · simp [same]
  · rw [beq_eq_false_iff_ne.mpr same, if_neg same]

theorem mem_after : name ∈ names.after history ↔
    lastChange? history name = some (.allow name) ∨
      lastChange? history name = none ∧ name ∈ names := by
  induction history using List.reverseRecOn with
  | nil => simp [after, lastChange?]
  | append_singleton history c ih =>
    rw [after_concat, lastChange?_concat]
    cases c with
    | allow other =>
      rw [change, mem_allow, ih]
      by_cases same : other = name
      · simp [Change.name, same]
      · simp [Change.name, same, Ne.symm same]
    | deny other =>
      rw [change, mem_deny, ih]
      by_cases same : other = name
      · simp [Change.name, same]
      · simp [Change.name, same, Ne.symm same]

theorem mem_after_allowed {allowed : List String} :
    name ∈ names.after (allowed.map .allow) ↔ name ∈ names ∨ name ∈ allowed := by
  induction allowed generalizing names with
  | nil => simp [after]
  | cons first rest ih =>
    rw [List.map_cons, after, List.foldl_cons, ← after, ih, change, mem_allow, List.mem_cons,
      or_assoc]

theorem mem_after_denied {denied : List String} :
    name ∈ names.after (denied.map .deny) ↔ name ∈ names ∧ name ∉ denied := by
  induction denied generalizing names with
  | nil => simp [after]
  | cons first rest ih =>
    rw [List.map_cons, after, List.foldl_cons, ← after, ih, change, mem_deny, List.mem_cons,
      not_or, and_assoc]

structure LetIn (history : List Change) (name : String) (place : Nat) : Prop where
  allowed : history[place]? = some (.allow name)
  kept : ∀ later, place < later → history[later]? ≠ some (.deny name)

structure JoinedAt (history : List Change) (name : String) (place : Nat) : Prop where
  letIn : LetIn history name place
  first : ∀ earlier < place, ¬ LetIn history name earlier

/-- One name became listed for the last time before another did. -/
def JoinedBefore (history : List Change) (name other : String) : Prop :=
  ∃ place later, JoinedAt history name place ∧ JoinedAt history other later ∧ place < later

theorem getElem?_concat_eq_some {d : Change} : (history ++ [c])[place]? = some d ↔
    history[place]? = some d ∨ place = history.length ∧ c = d := by
  rw [List.getElem?_append]
  split
  · next before => simp [Nat.ne_of_lt before]
  · next notBefore =>
    have outside : history[place]? = none := List.getElem?_eq_none (Nat.not_lt.mp notBefore)
    rw [List.getElem?_singleton, outside]
    have last : place - history.length = 0 ↔ place = history.length := by omega
    simp [last]

theorem LetIn.lt_length (letIn : LetIn history name place) : place < history.length :=
  (List.getElem?_eq_some_iff.mp letIn.allowed).1

theorem letIn_concat : LetIn (history ++ [c]) name place ↔
    LetIn history name place ∧ c ≠ .deny name ∨ place = history.length ∧ c = .allow name := by
  constructor
  · rintro ⟨allowed, kept⟩
    rcases getElem?_concat_eq_some.mp allowed with inside | ⟨rfl, rfl⟩
    · have before := (List.getElem?_eq_some_iff.mp inside).1
      refine .inl ⟨⟨inside, fun later behind denied => ?_⟩, fun denied => ?_⟩
      · exact kept later behind (getElem?_concat_eq_some.mpr (.inl denied))
      · exact kept history.length before (getElem?_concat_eq_some.mpr (.inr ⟨rfl, denied⟩))
    · exact .inr ⟨rfl, rfl⟩
  · rintro (⟨letIn, notDenied⟩ | ⟨rfl, rfl⟩)
    · refine ⟨getElem?_concat_eq_some.mpr (.inl letIn.allowed), fun later behind denied => ?_⟩
      rcases getElem?_concat_eq_some.mp denied with inside | ⟨-, denied⟩
      · exact letIn.kept later behind inside
      · exact notDenied denied
    · refine ⟨getElem?_concat_eq_some.mpr (.inr ⟨rfl, rfl⟩), fun later behind denied => ?_⟩
      rcases getElem?_concat_eq_some.mp denied with inside | ⟨-, denied⟩
      · exact Nat.lt_asymm behind (List.getElem?_eq_some_iff.mp inside).1
      · cases denied

theorem JoinedAt.unique {other : Nat} (joined : JoinedAt history name place)
    (joinedToo : JoinedAt history name other) : place = other := by
  rcases Nat.lt_trichotomy place other with before | same | behind
  · exact (joinedToo.first place before joined.letIn).elim
  · exact same
  · exact (joined.first other behind joinedToo.letIn).elim

theorem exists_joinedAt (letIn : ∃ place, LetIn history name place) :
    ∃ place, JoinedAt history name place := by
  classical
  exact ⟨Nat.find letIn, Nat.find_spec letIn, fun _ => Nat.find_min letIn⟩

theorem JoinedAt.concat (joined : JoinedAt history name place) (other : c ≠ .deny name) :
    JoinedAt (history ++ [c]) name place where
  letIn := letIn_concat.mpr (.inl ⟨joined.letIn, other⟩)
  first earlier before letIn := by
    rcases letIn_concat.mp letIn with ⟨letIn, -⟩ | ⟨rfl, -⟩
    · exact joined.first earlier before letIn
    · exact Nat.lt_asymm before joined.letIn.lt_length

theorem JoinedBefore.concat {other : String} (joined : JoinedBefore history name other)
    (kept : c ≠ .deny name) (keptToo : c ≠ .deny other) :
    JoinedBefore (history ++ [c]) name other := by
  obtain ⟨place, later, first, second, before⟩ := joined
  exact ⟨place, later, first.concat kept, second.concat keptToo, before⟩

theorem joinedAt_length (absent : ¬ ∃ place, LetIn history name place) :
    JoinedAt (history ++ [.allow name]) name history.length where
  letIn := letIn_concat.mpr (.inr ⟨rfl, rfl⟩)
  first earlier before letIn := by
    rcases letIn_concat.mp letIn with ⟨letIn, -⟩ | ⟨rfl, -⟩
    · exact absent ⟨earlier, letIn⟩
    · exact Nat.lt_irrefl _ before

theorem mem_after_iff_letIn : name ∈ after [] history ↔ ∃ place, LetIn history name place := by
  induction history using List.reverseRecOn with
  | nil => simpa [after] using fun place (letIn : LetIn [] name place) => nomatch letIn.allowed
  | append_singleton history c ih =>
    simp only [after_concat, letIn_concat, exists_or, exists_and_right, ← ih]
    cases c with
    | allow other => simp [change, mem_allow, eq_comm]
    | deny other => simp [change, mem_deny, eq_comm]

theorem pairwise_after (history : List Change) :
    (after [] history).Pairwise (JoinedBefore history) := by
  induction history using List.reverseRecOn with
  | nil => exact .nil
  | append_singleton history c ih =>
    rw [after_concat]
    cases c with
    | allow other =>
      have stays : (after [] history).Pairwise (JoinedBefore (history ++ [.allow other])) :=
        ih.imp fun joined => joined.concat nofun nofun
      by_cases listed : other ∈ after [] history
      · rwa [change, allow_of_mem listed]
      · rw [change, allow_of_not_mem listed, List.pairwise_append]
        refine ⟨stays, List.pairwise_singleton _ _, fun name member last same => ?_⟩
        obtain rfl := List.mem_singleton.mp same
        obtain ⟨place, joined⟩ := exists_joinedAt (mem_after_iff_letIn.mp member)
        exact ⟨place, history.length, joined.concat nofun,
          joinedAt_length (mt mem_after_iff_letIn.mpr listed), joined.letIn.lt_length⟩
    | deny other =>
      have kept {name : String} (member : name ∈ (after [] history).deny other) :
          Change.deny other ≠ .deny name := by
        rintro ⟨⟩
        exact ((mem_deny _ _ _).mp member).2 rfl
      rw [change]
      refine List.Pairwise.imp_of_mem (fun member memberToo joined => ?_) (ih.filter _)
      exact joined.concat (kept member) (kept memberToo)

theorem nodup_after (history : List Change) : (after [] history).Nodup := by
  refine (pairwise_after history).imp ?_
  rintro name _ ⟨place, later, joined, joinedToo, before⟩ rfl
  exact Nat.ne_of_lt before (joined.unique joinedToo)

end Allowlist

namespace Evaluator
open Allowlist

def change (e : Evaluator) : Change → Evaluator
  | .allow name => e.allow name
  | .deny name => e.deny name

theorem allowed_changes (e : Evaluator) (history : List Change) :
    (history.foldl change e).allowed = e.allowed.after history := by
  induction history generalizing e with
  | nil => rfl
  | cons c rest ih =>
    rw [List.foldl_cons, ih]
    cases c <;> rfl

theorem allowed_changes_new (config : Config) (functions : HostFunctions) (history : List Change) :
    (history.foldl change (new config functions)).allowed =
      after [] (config.allowed.map .allow ++ history) := by
  rw [allowed_changes, after_append, ← ofList_eq_after]
  rfl

end Evaluator

end ConfigExpr
