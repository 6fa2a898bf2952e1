import ConfigExpr.Proofs.Calendar.Formats

/-!
Date formats put together from parts. A format is written part by part, unless a part ends in a
backslash that escapes what the next one begins with. A text is written as it is if a backslash
stands in front of each of its characters, and the letters for whole formats may be spelled out.
-/
namespace ConfigExpr.Calendar.DateFormat

/-- Whether a pattern escapes the first character behind it. A backslash starts an escape unless it
is escaped itself. -/
def endsInEscape (pattern : List Char) : Bool :=
  pattern.foldl (fun escaping c => !escaping && c == '\\') false

/-- A pattern with a backslash in front of each character of a text. -/
def escaped (text : List Char) : List Char :=
  text.flatMap fun c => ['\\', c]

section Expand
variable {replace : Char → List Char}

theorem endsInEscape_escape (c : Char) (rest : List Char) :
    endsInEscape ('\\' :: c :: rest) = endsInEscape rest := rfl

theorem endsInEscape_cons {c : Char} (noEscape : c ≠ '\\') (rest : List Char) :
    endsInEscape (c :: rest) = endsInEscape rest := by
  have noStart : (c == '\\') = false := beq_eq_false_iff_ne.mpr noEscape
  rw [endsInEscape, List.foldl_cons, noStart, Bool.and_false, endsInEscape]

theorem expand_cons {c : Char} (noEscape : c ≠ '\\') (rest : List Char) :
    expand replace (c :: rest) = replace c ++ expand replace rest :=
  expand.eq_4 replace c rest (fun same _ => noEscape same) fun _ _ same _ => noEscape same

theorem expand_append {front : List Char} (closed : endsInEscape front = false)
    (behind : List Char) :
    expand replace (front ++ behind) = expand replace front ++ expand replace behind := by
  -- An escape is passed as a whole, and what is behind it ends in an escape if the pattern does.
  induction front using unescaped.induct with
  | case1 => rfl
  | case2 => cases closed
  | case3 c rest ih =>
    rw [endsInEscape_escape] at closed
    exact congrArg (c :: ·) (ih closed)
  | case4 c rest notLast notEscape ih =>
    have noEscape : c ≠ '\\' := by
      intro same
      cases rest with
      | nil => exact notLast same rfl
      | cons d rest => exact notEscape d rest same rfl
    rw [endsInEscape_cons noEscape] at closed
    rw [List.cons_append, expand_cons noEscape, expand_cons noEscape, ih closed, List.append_assoc]

theorem expand_escaped (text : List Char) : expand replace (escaped text) = text := by
  induction text with
  | nil => rfl
  | cons c rest ih => exact congrArg (c :: ·) ih

end Expand

section Whole
variable (t : LocalTime)

theorem expand_letter {pattern : List Char} (notIso : 'c' ∉ unescaped pattern)
    (notMail : 'r' ∉ unescaped pattern) :
    expand (letter t) pattern = expand (composite t) pattern := by
  refine expand_congr fun c member => ?_
  rw [composite, if_neg (ne_of_mem_of_not_mem member notIso),
    if_neg (ne_of_mem_of_not_mem member notMail)]

theorem composite_iso : composite t 'c' = expand (composite t) isoFormat.toList :=
  (if_pos rfl).trans (expand_letter t (by decide) (by decide))

theorem composite_mail : composite t 'r' = expand (composite t) mailFormat.toList :=
  ((if_neg (by decide)).trans (if_pos rfl)).trans (expand_letter t (by decide) (by decide))

end Whole

section Texts
variable {front : String} (behind : String) (t : LocalTime)

theorem format_append (closed : endsInEscape front.toList = false) :
    format (front ++ behind) t = format front t ++ format behind t := by
  rw [format, String.toList_append, expand_append closed, String.ofList_append, format, format]

theorem format_singleton {c : Char} (noEscape : c ≠ '\\') :
    format (String.singleton c) t = String.ofList (composite t c) := by
  rw [format, String.toList_singleton, expand_cons noEscape, expand, List.append_nil]

theorem format_spelled_out (closed : endsInEscape front.toList = false) {c : Char}
    (noEscape : c ≠ '\\') {long : String} (longClosed : endsInEscape long.toList = false)
    (means : composite t c = expand (composite t) long.toList) :
    format (front ++ String.singleton c ++ behind) t = format (front ++ long ++ behind) t := by
  have letterClosed : endsInEscape (String.singleton c).toList = false := by
    rw [String.toList_singleton, endsInEscape_cons noEscape]
    rfl
  have same : format (String.singleton c) t = format long t := by
    rw [format_singleton t noEscape, means, format]
  rw [String.append_assoc, String.append_assoc, format_append _ t closed, format_append _ t closed,
    format_append _ t letterClosed, format_append _ t longClosed, same]

end Texts

/-- A format in two parts is written as the one behind the other, unless the first part ends within
an escape. Escaped texts are written as they are, and the letters for whole formats may be spelled
out wherever they are not escaped. -/
theorem formats_are_written_in_parts {front : String} (closed : endsInEscape front.toList = false)
    (behind text : String) (t : LocalTime) :
    format (front ++ behind) t = format front t ++ format behind t ∧
      format (String.ofList (escaped text.toList)) t = text ∧
      format (front ++ "c" ++ behind) t = format (front ++ isoFormat ++ behind) t ∧
      format (front ++ "r" ++ behind) t = format (front ++ mailFormat ++ behind) t := by
  have iso : "c" = String.singleton 'c' := rfl
  have mail : "r" = String.singleton 'r' := rfl
  refine ⟨format_append behind t closed, ?_, ?_, ?_⟩
  · rw [format, String.toList_ofList, expand_escaped, String.ofList_toList]
  · rw [iso]
    exact format_spelled_out behind t closed (by decide) (by decide) (composite_iso t)
  · rw [mail]
    exact format_spelled_out behind t closed (by decide) (by decide) (composite_mail t)

theorem formats_are_written_in_parts_backslashes :
    let t : LocalTime := ⟨1418031515, 3600⟩
    endsInEscape "é\\c\\\\".toList = false ∧
      format ("é\\c\\\\" ++ "c\\") t = "éc\\" ++ "2014-12-08T10:38:35+01:00" ∧
      format (String.ofList (escaped "c\\é".toList)) t = "c\\é" ∧
      format ("é\\c\\\\" ++ "c" ++ "c\\") t =
        format ("é\\c\\\\" ++ "Y-m-d\\TH:i:sP" ++ "c\\") t ∧
      format ("é\\c\\\\" ++ "r" ++ "c\\") t =
        format ("é\\c\\\\" ++ "D, d M Y H:i:s O" ++ "c\\") t := by
  intro t
  have closed : endsInEscape "é\\c\\\\".toList = false := by decide
  have front : format "é\\c\\\\" t = "éc\\" := by decide
  have behind : format "c\\" t = "2014-12-08T10:38:35+01:00" := by decide
  have parts := formats_are_written_in_parts closed "c\\" "c\\é" t
  rw [front, behind] at parts
  exact ⟨closed, parts⟩

end ConfigExpr.Calendar.DateFormat
