import ConfigExpr.Proofs.Template.Grammar
import ConfigExpr.Proofs.Value.Scalars

/-!
What a written template is refused for. With scalars for all its conversions only the length of the
output can stop it, as long as each percent sign is written as a doubled one. A percent sign that is
asked for by flags, a width, a precision or the number of a value is always refused.
-/
namespace ConfigExpr.Template

namespace Part

/-- A conversion for a percent sign that says more than a doubled percent sign. -/
def isAdornedPercent : Part → Bool
  | conversion c => c.specifier == '%' && c.text != ['%']
  | _ => false

/-- Whether a part takes the next value. -/
def takesNext : Part → Bool
  | conversion c => c.specifier != '%' && c.argument.isNone
  | _ => false

def number : Part → Nat
  | conversion c => if c.specifier = '%' then 0 else c.argument.elim 0 Count.value
  | _ => 0

end Part

structure Supplies (values : List Value) (parts : List Part) : Prop where
  next : parts.countP Part.takesNext ≤ values.length
  numbered : ∀ part ∈ parts, part.number ≤ values.length

section Steps
variable {values : List Value} {v : Value} {d : Directive} {s : State} {out : Output}

theorem exists_show?_of_known (known : d.specifier ∈ specifiers) (noPercent : d.specifier ≠ '%')
    (scalar : v.isScalar = true) : ∃ shown, show? d v = .ok shown := by
  rw [show?]
  dsimp only
  split
  case h_1 =>
    rw [Value.text?_of_isScalar scalar]
    exact ⟨_, rfl⟩
  case h_15 => simp_all [specifiers]
  all_goals exact ⟨_, rfl⟩

theorem pushField_outcome (sign content : List Char) :
    (∃ next, pushField d out sign content = .ok next) ∨
      pushField d out sign content = .error tooLong := by
  rw [pushField]
  dsimp only
  split
  next => exact .inr rfl
  next => exact .inl ⟨_, rfl⟩

theorem pushDirective_outcome (known : d.specifier ∈ specifiers) (noPercent : d.specifier ≠ '%')
    (scalar : v.isScalar = true) :
    (∃ next, pushDirective d out v = .ok next) ∨ pushDirective d out v = .error tooLong := by
  obtain ⟨shown, shows⟩ := exists_show?_of_known known noPercent scalar
  rw [pushDirective, shows]
  cases shown with
  | rawByte b => exact .inl ⟨_, rfl⟩
  | field sign content => exact pushField_outcome sign content

theorem step_percent (percent : d.specifier = '%') (next : State) :
    step values s (.directive d) ≠ .ok next := by
  intro stepped
  unfold step at stepped
  dsimp only at stepped
  split at stepped
  next => cases stepped
  next v found =>
    rw [pushDirective, show?, percent] at stepped
    cases stepped

theorem specifier_of_text {c : Conversion} {char : Char} (alone : c.text = [char]) :
    c.specifier = char := by
  have last : c.text.getLast? = some c.specifier := by
    simp only [Conversion.text, ← List.append_assoc, List.getLast?_concat]
  rw [alone] at last
  exact (Option.some.inj last).symm

theorem piece_conversion {c : Conversion} (noPercent : c.specifier ≠ '%') :
    (Part.conversion c).piece = .directive c.directive :=
  if_neg fun alone => noPercent (specifier_of_text alone)

theorem step_conversion {c : Conversion} (noPercent : c.specifier ≠ '%')
    (scalars : ∀ v ∈ values, v.isScalar = true)
    (numbered : (Part.conversion c).number ≤ values.length)
    (next : s.next + (if (Part.conversion c).takesNext then 1 else 0) ≤ values.length) :
    (∃ out, step values s (.directive c.directive) =
        .ok ⟨out, s.next + if (Part.conversion c).takesNext then 1 else 0⟩) ∨
      step values s (.directive c.directive) = .error tooLong := by
  have outcome {index : Nat} {v : Value} (found : values[index]? = some v) :
      (∃ next, pushDirective c.directive s.out v = .ok next) ∨
        pushDirective c.directive s.out v = .error tooLong :=
    pushDirective_outcome c.known noPercent (scalars v (List.mem_of_getElem? found))
  have takesNext : (Part.conversion c).takesNext = c.argument.isNone := by
    simp [Part.takesNext, noPercent]
  rw [takesNext] at next ⊢
  rw [Part.number, if_neg noPercent] at numbered
  cases argument : c.argument with
  | none =>
    rw [argument] at next
    have found := List.getElem?_eq_getElem (show s.next < values.length from next)
    have read : c.directive.argument = none := by rw [Conversion.directive, argument, Option.map_none]
    simp only [step, read, found]
    rcases outcome found with ⟨out, pushed⟩ | pushed
    · exact .inl ⟨out, by rw [pushed]; rfl⟩
    · exact .inr (by rw [pushed]; rfl)
  | some number =>
    have counted := c.counted number argument
    rw [argument, Option.elim_some] at numbered
    have found := List.getElem?_eq_getElem (show number.value - 1 < values.length by omega)
    have read : c.directive.argument = some number.value := by
      rw [Conversion.directive, argument, Option.map_some]
    simp only [step, read, found]
    rcases outcome found with ⟨out, pushed⟩ | pushed
    · exact .inl ⟨out, by rw [pushed]; rfl⟩
    · exact .inr (by rw [pushed]; rfl)

theorem step_part {part : Part} (plainly : part.isAdornedPercent = false)
    (scalars : ∀ v ∈ values, v.isScalar = true) (numbered : part.number ≤ values.length)
    (next : s.next + (if part.takesNext then 1 else 0) ≤ values.length) :
    (∃ out, step values s part.piece = .ok ⟨out, s.next + if part.takesNext then 1 else 0⟩) ∨
      step values s part.piece = .error tooLong := by
  cases part with
  | literal c ordinary | percent => exact .inl ⟨_, rfl⟩
  | conversion c =>
    rw [Part.piece]
    split
    next alone =>
      have takesNone : (Part.conversion c).takesNext = false := by
        simp [Part.takesNext, specifier_of_text alone]
      rw [takesNone]
      exact .inl ⟨_, rfl⟩
    next more =>
      have noPercent : c.specifier ≠ '%' := fun percent => by
        simp [Part.isAdornedPercent, percent, more] at plainly
      exact step_conversion noPercent scalars numbered next

end Steps

section Runs
variable {values : List Value} {parts : List Part} {s : State}

theorem run_parts (plainly : parts.any Part.isAdornedPercent = false)
    (scalars : ∀ v ∈ values, v.isScalar = true)
    (numbered : ∀ part ∈ parts, part.number ≤ values.length)
    (next : s.next + parts.countP Part.takesNext ≤ values.length) :
    (∃ s', (parts.map Part.piece).foldlM (step values) s = .ok s') ∨
      (parts.map Part.piece).foldlM (step values) s = .error tooLong := by
  -- What each step keeps: there are still as many values as the parts ahead take.
  induction parts generalizing s with
  | nil => exact .inl ⟨s, rfl⟩
  | cons part parts ih =>
    rw [List.any_cons, Bool.or_eq_false_iff] at plainly
    rw [List.countP_cons] at next
    rw [List.map_cons, List.foldlM_cons]
    rcases step_part plainly.1 scalars (numbered part List.mem_cons_self) (s := s) (by omega) with
      ⟨out, stepped⟩ | stepped
    · rw [stepped, Outcome.ok_bind]
      refine ih plainly.2 (fun part member => numbered part (List.mem_cons_of_mem _ member)) ?_
      dsimp only
      omega
    · exact .inr (by rw [stepped]; rfl)

theorem run_adorned (adorned : parts.any Part.isAdornedPercent = true) (s' : State) :
    (parts.map Part.piece).foldlM (step values) s ≠ .ok s' := by
  induction parts generalizing s with
  | nil => cases adorned
  | cons part parts ih =>
    rw [List.map_cons, List.foldlM_cons]
    intro ran
    obtain ⟨next, stepped, others⟩ := Outcome.bind_eq_ok.mp ran
    rw [List.any_cons, Bool.or_eq_true] at adorned
    rcases adorned with first | later
    · cases part with
      | literal c ordinary | percent => cases first
      | conversion c =>
        rw [Part.isAdornedPercent, Bool.and_eq_true, beq_iff_eq, bne_iff_ne] at first
        rw [Part.piece, if_neg first.2] at stepped
        exact step_percent (by exact first.1) next stepped
    · exact ih later others

theorem renderBytes_templateText :
    renderBytes (String.ofList (templateText parts)) values =
      ((parts.map Part.piece).foldlM (step values) ⟨.empty, 0⟩).map fun s => s.out.bytes := by
  rw [renderBytes, String.toList_ofList, parse_templateText]

end Runs

/-- Formatting scalars by a written template fails for the length of the output alone; a conversion
for a percent sign that says more than a doubled percent sign is refused in any case. -/
theorem written_templates_fail_only_by_length (name : String) (parts : List Part)
    (values : List Value) (scalars : ∀ v ∈ values, v.isScalar = true)
    (supplied : Supplies values parts) :
    let outcome := format name (String.ofList (templateText parts)) values
    (parts.any Part.isAdornedPercent = false →
      (∃ v, outcome = .ok v) ∨ outcome = .error (.failed name tooLong)) ∧
    (parts.any Part.isAdornedPercent = true →
      ∃ reason, outcome = .error (.failed name reason)) := by
  simp only [format, renderBytes_templateText]
  constructor
  · intro plainly
    rcases run_parts plainly scalars supplied.numbered (s := ⟨.empty, 0⟩)
      (by simpa only [Nat.zero_add] using supplied.next) with ⟨s, ran⟩ | ran
    · exact .inl ⟨_, by rw [ran]; rfl⟩
    · exact .inr (by rw [ran]; rfl)
  · intro adorned
    rcases Outcome.eq_ok_or_eq_error ((parts.map Part.piece).foldlM (step values) ⟨.empty, 0⟩) with
      ⟨s, ran⟩ | ⟨reason, ran⟩
    · exact absurd ran (run_adorned adorned s)
    · exact ⟨reason, by rw [ran]; rfl⟩

/-- The second value with stars up to the width, behind a sign. -/
def starred : Conversion where
  argument := some ⟨['2'], by decide, List.all_eq_true.mp rfl, by decide⟩
  flags := [.padding '*', .left, .plus]
  width := some ⟨['6'], by decide, List.all_eq_true.mp rfl, by decide⟩
  precision := some ⟨['1'], by decide, List.all_eq_true.mp rfl, by decide⟩
  specifier := 'd'
  counted number same := by cases same; decide
  known := by decide

def rawByte : Conversion :=
  ⟨none, [], none, none, 'c', by simp, by decide⟩

theorem written_templates_fail_only_by_length_starred :
    let parts := [.conversion starred, .literal '|' (by decide), .conversion rawByte, .percent]
    let values : List Value := [.integer 65, .integer 42]
    (∀ v ∈ values, v.isScalar = true) ∧ Supplies values parts ∧
    templateText parts = "%2$'*-+6.1d|%c%%".toList ∧
    renderBytes "%2$'*-+6.1d|%c%%" values = .ok [43, 52, 50, 42, 42, 42, 124, 65, 37] ∧
    ((∃ v, format "sprintf" "%2$'*-+6.1d|%c%%" values = .ok v) ∨
      format "sprintf" "%2$'*-+6.1d|%c%%" values = .error (.failed "sprintf" tooLong)) := by
  intro parts values
  have scalars : ∀ v ∈ values, v.isScalar = true := by simp [values, Value.isScalar]
  have supplied : Supplies values parts := ⟨by decide, by decide⟩
  have written : templateText parts = "%2$'*-+6.1d|%c%%".toList := by decide
  have outcome :=
    (written_templates_fail_only_by_length "sprintf" parts values scalars supplied).1 (by decide)
  rw [written, String.ofList_toList] at outcome
  exact ⟨scalars, supplied, written, by rfl, outcome⟩

/-- A percent sign by a conversion, with no width to fill. -/
def leftPercent : Conversion :=
  ⟨none, [.left], none, none, '%', by simp, by decide⟩

/-- It wants a value although it shows none, and then its specifier is unknown. -/
theorem percent_conversion_is_refused :
    templateText [.conversion leftPercent] = "%-%".toList ∧ Supplies [] [.conversion leftPercent] ∧
    format "sprintf" "%-%" [] = .error (.failed "sprintf" "2 arguments are required, 1 given") ∧
    format "sprintf" "%-%" [.string "a"] =
      .error (.failed "sprintf" "Unknown format specifier \"%\"") := by
  have without : renderBytes "%-%" [] = .error (missingValue 0 0) := by rfl
  have unknown : renderBytes "%-%" [.string "a"] = .error (unknownSpecifier '%') := by rfl
  refine ⟨by decide, ⟨by decide, by decide⟩, ?_, ?_⟩
  · have reason : missingValue 0 0 = "2 arguments are required, 1 given" := by decide
    rw [format, without, reason]
  · have reason : unknownSpecifier '%' = "Unknown format specifier \"%\"" := by decide
    rw [format, unknown, reason]

end ConfigExpr.Template
