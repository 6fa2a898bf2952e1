import ConfigExpr.Proofs.DatePhrase.Scanning
import ConfigExpr.Text.CharacterList
import ConfigExpr.Text.Strip
import Mathlib.Data.List.TakeWhile
import Mathlib.Data.Set.Insert

/-!
The characters that a list stands for, and texts without them at their ends. A list is scanned from
left to right, where a range is taken wherever one begins. A text has exactly one middle that
neither begins nor ends with a listed character and has only listed characters around it.
-/
namespace ConfigExpr.Text
open Scan

inductive ListPart where
  | single (c : Char)
  | range (first last : Char)

namespace ListPart

def chars : ListPart → Set Char
  | single c => {c}
  | range first last => {c | first ≤ c ∧ c ≤ last}

def interval : ListPart → Char × Char
  | single c => (c, c)
  | range first last => (first, last)

theorem mem_chars_iff {part : ListPart} {c : Char} :
    c ∈ part.chars ↔ part.interval.1 ≤ c ∧ c ≤ part.interval.2 := by
  cases part with
  | single d =>
    refine ⟨?_, fun ⟨above, below⟩ => Char.le_antisymm below above⟩
    rintro rfl
    exact ⟨Char.le_refl c, Char.le_refl c⟩
  | range first last => rfl

end ListPart

/-- Two characters in ascending order with two points in between. -/
def StartsWithRange (list : List Char) : Prop :=
  ∃ first last rest, first ≤ last ∧ list = first :: '.' :: '.' :: last :: rest

/-- The parts of a list as they are found from left to right, without overlap. -/
inductive PartsOf : List Char → List ListPart → Prop where
  | nil : PartsOf [] []
  | range {first last : Char} {rest : List Char} {parts : List ListPart} (ascending : first ≤ last)
      (others : PartsOf rest parts) :
      PartsOf (first :: '.' :: '.' :: last :: rest) (.range first last :: parts)
  | single {c : Char} {rest : List Char} {parts : List ListPart}
      (alone : ¬ StartsWithRange (c :: rest)) (others : PartsOf rest parts) :
      PartsOf (c :: rest) (.single c :: parts)

/-- The characters that a list stands for. -/
def listed (list : List Char) : Set Char :=
  {c | ∃ parts, PartsOf list parts ∧ ∃ part ∈ parts, c ∈ part.chars}

theorem exists_partsOf (list : List Char) : ∃ parts, PartsOf list parts := by
  induction list using Intervals.ofList.induct with
  | case1 => exact ⟨[], .nil⟩
  | case2 first last rest ascending ih =>
    obtain ⟨parts, others⟩ := ih
    exact ⟨_, .range ascending others⟩
  | case3 first last rest descending ih =>
    obtain ⟨parts, others⟩ := ih
    refine ⟨_, .single ?_ others⟩
    rintro ⟨_, _, _, ascending, same⟩
    cases same
    exact descending ascending
  | case4 c rest noRange ih =>
    obtain ⟨parts, others⟩ := ih
    refine ⟨_, .single ?_ others⟩
    rintro ⟨_, last, behind, -, same⟩
    cases same
    exact noRange last behind rfl

theorem PartsOf.ofList_eq {list : List Char} {parts : List ListPart} (found : PartsOf list parts) :
    Intervals.ofList list = parts.map ListPart.interval := by
  induction found with
  | nil => rfl
  | range ascending others ih =>
    rw [Intervals.ofList, if_pos ascending, ih]
    rfl
  | single alone others ih =>
    rw [Intervals.ofList.eq_def]
    split
    next nothing => cases nothing
    next same =>
      obtain ⟨rfl, rfl⟩ := List.cons.inj same
      split
      next ascending => exact absurd ⟨_, _, _, ascending, rfl⟩ alone
      next => exact congrArg _ ih
    next same =>
      obtain ⟨rfl, rfl⟩ := List.cons.inj same
      exact congrArg _ ih

theorem contains_ofList {list : List Char} {c : Char} :
    (Intervals.ofList list).contains c = true ↔ c ∈ listed list := by
  have covered {parts : List ListPart} (found : PartsOf list parts) :
      (Intervals.ofList list).contains c = true ↔ ∃ part ∈ parts, c ∈ part.chars := by
    simp only [found.ofList_eq, Intervals.contains, List.any_map, List.any_eq_true,
      Function.comp_apply, Bool.and_eq_true, decide_eq_true_eq, ListPart.mem_chars_iff]
  constructor
  · intro held
    obtain ⟨parts, found⟩ := exists_partsOf list
    exact ⟨parts, found, (covered found).mp held⟩
  · rintro ⟨parts, found, held⟩
    exact (covered found).mpr held

structure StrippedTo (chars : Set Char) (text middle : List Char) : Prop where
  around : ∃ before behind, text = before ++ (middle ++ behind) ∧
    (∀ c ∈ before, c ∈ chars) ∧ ∀ c ∈ behind, c ∈ chars
  first : ∀ c, middle.head? = some c → c ∉ chars
  last : ∀ c, middle.getLast? = some c → c ∉ chars

section Strip
variable {p : Char → Bool} {chars : Set Char} {text middle : List Char}

theorem StrippedTo.self (stripped : StrippedTo chars text middle) :
    StrippedTo chars middle middle :=
  ⟨⟨[], [], by simp, by simp, by simp⟩, stripped.first, stripped.last⟩

theorem strippedTo_strip (same : ∀ c, p c = true ↔ c ∈ chars) (text : List Char) :
    StrippedTo chars text (strip p text) := by
  have taken (run : List Char) : ∀ c ∈ run.takeWhile p, c ∈ chars := fun c member =>
    (same c).mp (List.all_eq_true.mp List.all_takeWhile c member)
  have notFirst (run : List Char) (c : Char) (first : (run.dropWhile p).head? = some c) :
      c ∉ chars := fun held =>
    Bool.false_ne_true ((stops_dropWhile p run c first).symm.trans ((same c).mpr held))
  have start : text = text.takeWhile p ++ text.dropWhile p :=
    List.takeWhile_append_dropWhile.symm
  have ending : text.dropWhile p =
      strip p text ++ ((text.dropWhile p).reverse.takeWhile p).reverse := by
    rw [strip, stripStart, stripEnd, ← List.reverse_append, List.takeWhile_append_dropWhile,
      List.reverse_reverse]
  refine ⟨⟨_, _, start.trans (congrArg _ ending), taken text, fun c member =>
    taken _ c (List.mem_reverse.mp member)⟩, fun c first => ?_, fun c last => ?_⟩
  · refine notFirst text c ?_
    rw [ending, List.head?_append, first, Option.some_or]
  · rw [strip, stripEnd, List.getLast?_reverse] at last
    exact notFirst _ c last

theorem StrippedTo.strip_eq (same : ∀ c, p c = true ↔ c ∈ chars)
    (stripped : StrippedTo chars text middle) : strip p text = middle := by
  obtain ⟨⟨before, behind, rfl, beforeIn, behindIn⟩, first, last⟩ := stripped
  have beforeTaken : ∀ c ∈ before, p c = true := fun c member => (same c).mpr (beforeIn c member)
  have behindTaken : ∀ c ∈ behind, p c = true := fun c member => (same c).mpr (behindIn c member)
  rw [strip, stripStart, List.dropWhile_append_of_pos beforeTaken]
  cases middle with
  | nil =>
    rw [List.nil_append, List.dropWhile_eq_nil_iff.mpr behindTaken]
    rfl
  | cons c rest =>
    have starts : Stops p (c :: rest) := fun d head =>
      Bool.eq_false_iff.mpr fun held => first d head ((same d).mp held)
    have ends : Stops p (c :: rest).reverse := fun d head =>
      Bool.eq_false_iff.mpr fun held =>
        last d (List.head?_reverse.symm.trans head) ((same d).mp held)
    have whole : Stops p (c :: rest ++ behind) := fun d head => starts d head
    have reversed : ∀ c ∈ behind.reverse, p c = true := fun c member =>
      behindTaken c (List.mem_reverse.mp member)
    rw [dropWhile_stops whole, stripEnd, List.reverse_append, dropWhile_append reversed ends,
      List.reverse_reverse]

end Strip

end ConfigExpr.Text
