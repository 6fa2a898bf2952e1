import ConfigExpr.Calendar.DateFormat

/-!
What the letters of a date format can show. Most letters show a part of the local time alone, so two
instants whose local times agree are written alike.
-/
namespace ConfigExpr.Calendar.DateFormat
variable {t u : LocalTime}

/-- The characters of a format that no backslash precedes. -/
def unescaped : List Char → List Char
  | [] => []
  | ['\\'] => []
  | '\\' :: _ :: rest => unescaped rest
  | c :: rest => c :: unescaped rest

/-- The letters that show the offset or the instant itself, or stand for formats that do. -/
def zoneLetters : List Char :=
  ['e', 'T', 'O', 'P', 'p', 'Z', 'c', 'r', 'U', 'B']

theorem expand_congr {f g : Char → List Char} {pattern : List Char}
    (same : ∀ c ∈ unescaped pattern, f c = g c) : expand f pattern = expand g pattern := by
  induction pattern using unescaped.induct with
  | case1 | case2 => rfl
  | case3 c rest ih =>
    rw [expand, expand, ih (by simpa only [unescaped] using same)]
  | case4 c rest notLast notEscape ih =>
    rw [unescaped.eq_4 c rest notLast notEscape] at same
    rw [expand.eq_4 _ c rest notLast notEscape, expand.eq_4 _ c rest notLast notEscape,
      same c List.mem_cons_self, ih fun d member => same d (List.mem_cons_of_mem _ member)]

theorem letter_congr (same : t.seconds = u.seconds) {c : Char} (shown : c ∉ zoneLetters) :
    letter t c = letter u c := by
  have day : t.day = u.day := congrArg dayOf same
  have hour : t.hour = u.hour := congrArg (secondOfDay · / 3600) same
  have minute : t.minute = u.minute := congrArg (secondOfDay · / 60 % 60) same
  have second : t.second = u.second := congrArg (secondOfDay · % 60) same
  simp only [letter, day, hour, minute, second]
  -- The branches of the letters left out are the only ones that still differ.
  split <;> first | rfl | exact absurd (by decide) shown

theorem composite_congr (same : t.seconds = u.seconds) {c : Char} (shown : c ∉ zoneLetters) :
    composite t c = composite u c := by
  have notIso : c ≠ 'c' := by rintro rfl; exact shown (by decide)
  have notMail : c ≠ 'r' := by rintro rfl; exact shown (by decide)
  rw [composite, composite, if_neg notIso, if_neg notMail, if_neg notIso, if_neg notMail,
    letter_congr same shown]

theorem format_congr (same : t.seconds = u.seconds) {pattern : String}
    (shown : ∀ c ∈ unescaped pattern.toList, c ∉ zoneLetters) :
    format pattern t = format pattern u := by
  rw [format, format, expand_congr fun c member => composite_congr same (shown c member)]

end ConfigExpr.Calendar.DateFormat
