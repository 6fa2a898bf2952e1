import ConfigExpr.Proofs.DatePhrase.Phrases

/-!
Texts that are items with single blanks between them, where every item starts with a sign or a digit.
An item that is read as one token whatever item stands behind it is read so everywhere.
-/
namespace ConfigExpr.DatePhrase
open Text Scan

def itemStarts : List Char :=
  '+' :: '-' :: asciiDigits

def StartsItem (text : List Char) : Prop :=
  ∃ c ∈ itemStarts, ∃ rest, text = c :: rest

theorem startsItem_run {n : Nat} (run : DigitRun n) (positive : 0 < n) (rest : List Char) :
    StartsItem (run.digits ++ rest) := by
  obtain ⟨digits, ascii, rfl⟩ := run
  cases digits with
  | nil => exact absurd positive (Nat.lt_irrefl 0)
  | cons c digits =>
    have digit : c ∈ asciiDigits := mem_asciiDigits (ascii c List.mem_cons_self)
    exact ⟨c, List.mem_cons_of_mem _ (List.mem_cons_of_mem _ digit), digits ++ rest, rfl⟩

theorem startsItem_sign (negative : Bool) (rest : List Char) :
    StartsItem (Token.signOf negative :: rest) := by
  refine ⟨_, ?_, rest, rfl⟩
  cases negative with
  | false | true => decide

/-- What is behind an item: nothing, or a blank and another item. -/
def Follows (rest : List Char) : Prop :=
  rest = [] ∨ ∃ next, StartsItem next ∧ rest = ' ' :: next

section Starts
variable {p : Char → Bool} {text rest : List Char}

theorem StartsItem.stops (starts : StartsItem text) (others : itemStarts.any p = false) :
    Stops p text := by
  obtain ⟨c, start, rest, rfl⟩ := starts
  exact stops_cons (Bool.eq_false_iff.mpr (List.any_eq_false.mp others c start))

theorem StartsItem.append (starts : StartsItem text) (rest : List Char) :
    StartsItem (text ++ rest) := by
  obtain ⟨c, start, more, rfl⟩ := starts
  exact ⟨c, start, more ++ rest, rfl⟩

theorem StartsItem.map_toLower (starts : StartsItem text) : StartsItem (text.map Char.toLower) := by
  obtain ⟨c, start, rest, rfl⟩ := starts
  have each : itemStarts.all (fun c => c.toLower == c) = true := rfl
  have same : c.toLower = c := eq_of_beq (List.all_eq_true.mp each c start)
  exact ⟨c, start, rest.map Char.toLower, by rw [List.map_cons, same]⟩

theorem StartsItem.length_pos (starts : StartsItem text) : 0 < text.length := by
  obtain ⟨c, -, rest, rfl⟩ := starts
  exact Nat.succ_pos _

theorem Follows.stops (follows : Follows rest) (other : p ' ' = false) : Stops p rest := by
  rcases follows with rfl | ⟨next, -, rfl⟩
  · exact stops_nil
  · exact stops_cons other

theorem Follows.halfOfDay (follows : Follows rest) : Token.halfOfDay rest = some (none, rest) := by
  rcases follows with rfl | ⟨next, starts, rfl⟩
  · rfl
  · exact Token.halfOfDay_absent (List.forall_mem_singleton.mpr rfl) (starts.stops rfl)
      (starts.stops rfl)

end Starts

/-- Texts with single blanks between them. -/
def spaced (texts : List (List Char)) : List Char :=
  [' '].intercalate texts

theorem spaced_cons (text : List Char) (texts : List (List Char)) :
    spaced (text :: texts) = text ++ texts.flatMap (' ' :: ·) := by
  induction texts generalizing text with
  | nil => rw [spaced, List.intercalate_singleton, List.flatMap_nil, List.append_nil]
  | cons next texts ih =>
    rw [spaced, List.intercalate_cons_cons, ← spaced, ih, List.flatMap_cons, List.append_assoc]
    rfl

theorem map_toLower_spaced (texts : List (List Char)) :
    (spaced texts).map Char.toLower = spaced (texts.map (·.map Char.toLower)) := by
  cases texts with
  | nil => rfl
  | cons text texts =>
    have blank : ' '.toLower = ' ' := rfl
    rw [List.map_cons, spaced_cons, spaced_cons, List.map_append, List.map_flatMap,
      List.flatMap_map]
    simp only [List.map_cons, blank]

theorem spaced_reverse_stops {texts : List (List Char)} (filled : texts ≠ [])
    (ends : ∀ text ∈ texts, ∀ rest, Stops isBlank (text.reverse ++ rest)) (rest : List Char) :
    Stops isBlank ((spaced texts).reverse ++ rest) := by
  induction texts generalizing rest with
  | nil => exact absurd rfl filled
  | cons text texts ih =>
    obtain ⟨first, others⟩ := List.forall_mem_cons.mp ends
    cases texts with
    | nil =>
      rw [spaced, List.intercalate_singleton]
      exact first rest
    | cons next texts =>
      rw [spaced, List.intercalate_cons_cons, ← spaced, List.reverse_append, List.append_assoc]
      exact ih (List.cons_ne_nil _ _) others _

section Items
variable {α : Type} {items : List α} {text : α → List Char} {token : α → Token}

theorem follows_tail (starts : ∀ item ∈ items, StartsItem (text item)) :
    Follows ((items.map text).flatMap (' ' :: ·)) := by
  cases items with
  | nil => exact .inl rfl
  | cons item items => exact .inr ⟨_, (starts item List.mem_cons_self).append _, rfl⟩

theorem reads_tail (starts : ∀ item ∈ items, StartsItem (text item))
    (scanned : ∀ item ∈ items, ∀ rest, Follows rest →
      Token.scan (text item ++ rest) = some (some (token item), rest)) :
    Token.Reads ((items.map text).flatMap (' ' :: ·)) (items.map token) := by
  induction items with
  | nil => exact Token.reads_nil
  | cons item items ih =>
    obtain ⟨start, others⟩ := List.forall_mem_cons.mp starts
    obtain ⟨first, more⟩ := List.forall_mem_cons.mp scanned
    exact .cons (Token.stripStart_blank ((start.append _).stops rfl)) (first _ (follows_tail others))
      (ih others more)

theorem reads_spaced (starts : ∀ item ∈ items, StartsItem (text item))
    (scanned : ∀ item ∈ items, ∀ rest, Follows rest →
      Token.scan (text item ++ rest) = some (some (token item), rest)) :
    Token.Reads (spaced (items.map text)) (items.map token) := by
  cases items with
  | nil => exact Token.reads_nil
  | cons item items =>
    obtain ⟨start, others⟩ := List.forall_mem_cons.mp starts
    obtain ⟨first, more⟩ := List.forall_mem_cons.mp scanned
    rw [List.map_cons, spaced_cons]
    exact .cons (Token.stripStart_of_stops ((start.append _).stops rfl))
      (first _ (follows_tail others)) (reads_tail others more)

theorem length_le_spaced (starts : ∀ item ∈ items, StartsItem (text item)) :
    items.length ≤ (spaced (items.map text)).length := by
  induction items with
  | nil => exact Nat.zero_le _
  | cons item items ih =>
    obtain ⟨start, others⟩ := List.forall_mem_cons.mp starts
    have shorter := ih others
    have filled := start.length_pos
    cases items with
    | nil => rwa [List.map_singleton, spaced, List.intercalate_singleton]
    | cons next items =>
      rw [List.map_cons, List.map_cons, spaced, List.intercalate_cons_cons, ← spaced, ← List.map_cons,
        List.length_append, List.length_append, List.length_cons]
      omega

theorem parse_spaced (filled : items ≠ []) (starts : ∀ item ∈ items, StartsItem (text item))
    (ends : ∀ item ∈ items, ∀ rest, Stops isBlank ((text item).reverse ++ rest))
    (notRfc3339 : Rfc3339.scan (spaced (items.map text)) = none)
    (notRfc2822 : Rfc2822.scan (spaced (items.map text)) = none)
    (scanned : ∀ item ∈ items, ∀ rest, Follows rest →
      Token.scan ((text item).map Char.toLower ++ rest) = some (some (token item), rest))
    (base offset : Int) :
    parse (String.ofList (spaced (items.map text))) base offset =
      understood (Reading.ofTokens? (items.map token)) >>= fun reading => reading.resolve base offset := by
  have start : Stops isBlank (spaced (items.map text)) := by
    cases items with
    | nil => exact absurd rfl filled
    | cons item items =>
      rw [List.map_cons, spaced_cons]
      exact ((starts item List.mem_cons_self).append _).stops rfl
  have ending : Stops isBlank (spaced (items.map text)).reverse := by
    have texts : items.map text ≠ [] := fun empty => filled (List.map_eq_nil_iff.mp empty)
    have each : ∀ written ∈ items.map text, ∀ rest, Stops isBlank (written.reverse ++ rest) :=
      List.forall_mem_map.mpr ends
    have last := spaced_reverse_stops texts each []
    rwa [List.append_nil] at last
  have reads : Token.Reads ((spaced (items.map text)).map Char.toLower) (items.map token) := by
    rw [map_toLower_spaced, List.map_map]
    exact reads_spaced (fun item member => (starts item member).map_toLower) scanned
  have enough : (items.map token).length ≤ (spaced (items.map text)).length := by
    rw [List.length_map]
    exact length_le_spaced starts
  have tokens : items.map token ≠ [] := fun empty => filled (List.map_eq_nil_iff.mp empty)
  exact parse_of_reads start ending notRfc3339 notRfc2822 reads enough tokens base offset

end Items

end ConfigExpr.DatePhrase
