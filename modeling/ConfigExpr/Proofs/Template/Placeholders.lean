import ConfigExpr.Proofs.Template.IntegerFields

/-!
Templates of literal texts with a placeholder for a text between each two. Percent signs are doubled
in the literal texts, so none of their characters is taken into a placeholder, and the placeholders
take the values one after the other. Where one finds no value left, the template is refused.
-/
namespace ConfigExpr.Template
open Outcome

def escaped (text : String) : String :=
  String.ofList (text.toList.flatMap fun c => if c = '%' then ['%', '%'] else [c])

/-- Literal texts with a placeholder in front of each but the first. -/
def placeholderTemplate (first : String) (others : List String) : String :=
  escaped first ++ String.join (others.map fun literal => "%s" ++ escaped literal)

/-- Literal texts, in front of each but the first a text of its own, up to where one of the lists
ends. -/
def filled (first : String) (others texts : List String) : String :=
  first ++ String.join (List.zipWith (· ++ ·) texts others)

def Part.ofChar (c : Char) : Part :=
  if percent : c = '%' then .percent else .literal c percent

def literalParts (text : String) : List Part :=
  text.toList.map Part.ofChar

theorem value_pos_of_none (number : Count) (same : none = some number) : 0 < number.value :=
  nomatch same

def placeholder : Conversion :=
  ⟨none, [], none, none, 's', value_pos_of_none, by decide⟩

def placeholderParts (others : List String) : List Part :=
  others.flatMap fun literal => .conversion placeholder :: literalParts literal

section Parts
variable (first literal : String) (others : List String)

theorem text_ofChar (c : Char) : (Part.ofChar c).text = if c = '%' then ['%', '%'] else [c] := by
  rw [Part.ofChar]
  split <;> rfl

theorem piece_ofChar (c : Char) : (Part.ofChar c).piece = .literal c := by
  rw [Part.ofChar]
  split
  next percent => rw [percent]; rfl
  next => rfl

theorem templateText_literalParts :
    templateText (literalParts literal) = (escaped literal).toList := by
  rw [templateText, literalParts, List.flatMap_map, escaped, String.toList_ofList]
  exact congrArg (List.flatMap · literal.toList) (funext text_ofChar)

theorem templateText_placeholderParts : templateText (placeholderParts others) =
    (String.join (others.map fun literal => "%s" ++ escaped literal)).toList := by
  induction others with
  | nil => rfl
  | cons literal others ih =>
    have split : templateText (placeholderParts (literal :: others)) = ['%', 's'] ++
        (templateText (literalParts literal) ++ templateText (placeholderParts others)) :=
      congrArg (['%', 's'] ++ ·) List.flatMap_append
    have mark : "%s".toList = ['%', 's'] := rfl
    rw [split, templateText_literalParts, ih, List.map_cons, String.join_cons, String.toList_append,
      String.toList_append, mark, List.append_assoc]

theorem placeholderTemplate_eq : placeholderTemplate first others =
    String.ofList (templateText (literalParts first ++ placeholderParts others)) := by
  have split : templateText (literalParts first ++ placeholderParts others) =
      templateText (literalParts first) ++ templateText (placeholderParts others) :=
    List.flatMap_append
  rw [split, templateText_literalParts, templateText_placeholderParts, String.ofList_append,
    String.ofList_toList, String.ofList_toList, placeholderTemplate]

end Parts

def runParts (values : List Value) (parts : List Part) (s : State) : Except String State :=
  (parts.map Part.piece).foldlM (step values) s

section Runs
variable {values : List Value} {s : State} {v : Value} {text : String}

theorem runParts_cons (part : Part) (parts : List Part) :
    runParts values (part :: parts) s = step values s part.piece >>= runParts values parts := by
  rw [runParts, List.map_cons, List.foldlM_cons]
  rfl

theorem runParts_append (front behind : List Part) :
    runParts values (front ++ behind) s = runParts values front s >>= runParts values behind := by
  rw [runParts, List.map_append, List.foldlM_append]
  rfl

theorem run_literalParts (values : List Value) (s : State) (literal : String) :
    ∃ out, runParts values (literalParts literal) s = .ok ⟨out, s.next⟩ ∧
      out.bytes = s.out.bytes ++ Utf8.encode literal := by
  rw [literalParts, Utf8.encode]
  induction literal.toList generalizing s with
  | nil => exact ⟨s.out, rfl, (List.append_nil _).symm⟩
  | cons c text ih =>
    obtain ⟨out, ran, bytes⟩ := ih ⟨s.out.push (Utf8.encodeChar c), s.next⟩
    refine ⟨out, ?_, ?_⟩
    · rw [List.map_cons, runParts_cons, piece_ofChar]
      exact ran
    · rw [bytes, Output.bytes_push, List.append_assoc]
      rfl

theorem placeholder_piece :
    (Part.conversion placeholder).piece = .directive placeholder.directive :=
  piece_conversion (by decide)

theorem pushDirective_placeholder {out : Output} (shown : v.text? = some text)
    (fits : out.bytes.length + (Utf8.encode text).length ≤ outputLimit) :
    pushDirective placeholder.directive out v = .ok (out.push (Utf8.encode text)) := by
  have shows : show? placeholder.directive v = .ok (.field [] text.toList) := by
    have specifier : placeholder.directive.specifier = 's' := rfl
    have whole : placeholder.directive.precision = none := rfl
    rw [show?, specifier]
    simp only [shown, whole]
  have bare : placeholder.directive.padded text.toList = text.toList :=
    placeholder.directive.padded_withWidth_zero text.toList
  rw [pushDirective_eq shows, List.nil_append, bare]
  exact if_neg (Nat.not_lt.mpr fits)

theorem step_placeholder (found : values[s.next]? = some v) (shown : v.text? = some text)
    (fits : s.out.bytes.length + (Utf8.encode text).length ≤ outputLimit) :
    step values s (Part.conversion placeholder).piece =
      .ok ⟨s.out.push (Utf8.encode text), s.next + 1⟩ := by
  have next : placeholder.directive.argument = none := rfl
  simp only [placeholder_piece, step, next, found, pushDirective_placeholder shown fits]
  rfl

theorem step_placeholder_missing (missing : values.length ≤ s.next) :
    step values s (Part.conversion placeholder).piece =
      .error (missingValue s.next values.length) := by
  have next : placeholder.directive.argument = none := rfl
  simp only [placeholder_piece, step, next, List.getElem?_eq_none missing]

theorem run_placeholderParts {ahead : List Value} {texts : List String} (others : List String)
    (counted : s.next ≤ values.length) (rest : values.drop s.next = ahead)
    (shown : ahead.map Value.text? = texts.map some)
    (fits : s.out.bytes.length +
      (Utf8.encode (String.join (List.zipWith (· ++ ·) texts others))).length ≤ outputLimit) :
    (runParts values (placeholderParts others) s).map (fun s => s.out.bytes) =
      if others.length ≤ ahead.length then
        .ok (s.out.bytes ++ Utf8.encode (String.join (List.zipWith (· ++ ·) texts others)))
      else .error (missingValue values.length values.length) := by
  -- Each placeholder takes the first of the values ahead and the first of their texts.
  induction others generalizing s ahead texts with
  | nil =>
    rw [List.zipWith_nil_right]
    exact congrArg Except.ok (List.append_nil _).symm
  | cons literal others ih =>
    have split : placeholderParts (literal :: others) =
        .conversion placeholder :: (literalParts literal ++ placeholderParts others) := rfl
    rw [split, runParts_cons]
    cases ahead with
    | nil =>
      have last : s.next = values.length := Nat.le_antisymm counted (List.drop_eq_nil_iff.mp rest)
      rw [step_placeholder_missing last.ge, last]
      rfl
    | cons v ahead =>
      obtain ⟨text, texts, rfl, shows, later⟩ := List.map_eq_cons_iff.mp shown.symm
      have found : values[s.next]? = some v := by rw [← List.head?_drop, rest, List.head?_cons]
      have tail : values.drop (s.next + 1) = ahead := by rw [← List.tail_drop, rest, List.tail_cons]
      have inside : s.next < values.length := (List.getElem?_eq_some_iff.mp found).1
      rw [List.zipWith_cons_cons, String.join_cons, Utf8.encode_append,
        Utf8.encode_append] at fits ⊢
      simp only [List.length_append] at fits
      obtain ⟨out, ran, bytes⟩ :=
        run_literalParts values ⟨s.out.push (Utf8.encode text), s.next + 1⟩ literal
      rw [Output.bytes_push] at bytes
      have rest := ih (s := ⟨out, s.next + 1⟩) inside tail later.symm (by
        simp only [bytes, List.length_append]
        omega)
      rw [step_placeholder found shows.symm (by omega), ok_bind, runParts_append, ran, ok_bind,
        rest, bytes]
      simp only [List.length_cons, Nat.add_le_add_iff_right, List.append_assoc]

end Runs

theorem ofBytes_encode (text : String) : ofBytes (Utf8.encode text) = .string text := by
  rw [Utf8.encode, ofBytes_encodeChars, String.ofList_toList]

theorem format_placeholders (name first : String) {others texts : List String} {values : List Value}
    (shown : values.mapM Value.text? = some texts)
    (fits : (Utf8.encode (filled first others texts)).length ≤ outputLimit) :
    format name (placeholderTemplate first others) values =
      if others.length ≤ values.length then .ok (.string (filled first others texts))
      else .error (.failed name (missingValue values.length values.length)) := by
  obtain ⟨out, ran, bytes⟩ := run_literalParts values ⟨.empty, 0⟩ first
  have start : out.bytes = Utf8.encode first := bytes
  rw [filled, Utf8.encode_append, List.length_append] at fits
  have later := run_placeholderParts (s := ⟨out, 0⟩) others (Nat.zero_le _) List.drop_zero
    (mapM_eq_some.mp shown) (by rw [start]; exact fits)
  have whole : renderBytes (placeholderTemplate first others) values =
      (runParts values (placeholderParts others) ⟨out, 0⟩).map fun s => s.out.bytes := by
    rw [placeholderTemplate_eq, renderBytes_templateText, ← runParts, runParts_append, ran]
    rfl
  rw [format, whole, later]
  by_cases enough : others.length ≤ values.length
  · rw [if_pos enough, if_pos enough, start, ← Utf8.encode_append, ← filled]
    exact congrArg Except.ok (ofBytes_encode _)
  · rw [if_neg enough, if_neg enough]

end ConfigExpr.Template
