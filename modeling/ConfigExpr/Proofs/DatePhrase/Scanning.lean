import ConfigExpr.DatePhrase.Scan

/-!
Scanners on texts whose parts are known. A run of characters of a class is taken up to a text that
does not continue the class; what a scanner made of others does is settled by what its first part
does.
-/
namespace ConfigExpr.Scan
open Text
variable {α β : Type} {x : Scan α} {f : α → Scan β} {p : Char → Bool} {text taken rest : List Char}
  {a : α} {c d : Char}

/-- A text that does not start with a character of a class. -/
def Stops (p : Char → Bool) (text : List Char) : Prop :=
  ∀ c, text.head? = some c → p c = false

theorem stops_nil : Stops p [] :=
  fun _ first => nomatch first

theorem stops_cons (other : p c = false) : Stops p (c :: rest) :=
  fun _ first => Option.some.inj first ▸ other

theorem Stops.mono {q : Char → Bool} (stops : Stops p text) (within : ∀ c, q c = true → p c = true) :
    Stops q text :=
  fun c first => Bool.eq_false_iff.mpr fun holds =>
    Bool.false_ne_true ((stops c first).symm.trans (within c holds))

theorem stops_append (filled : taken ≠ []) (others : ∀ c ∈ taken, p c = false) :
    Stops p (taken ++ rest) := by
  cases taken with
  | nil => exact absurd rfl filled
  | cons c taken => exact stops_cons (others c List.mem_cons_self)

theorem stops_of_forall (others : ∀ c ∈ text, p c = false) : Stops p text :=
  fun c first => others c (List.mem_of_head? first)

theorem stops_dropWhile (p : Char → Bool) (text : List Char) : Stops p (text.dropWhile p) := by
  intro c first
  have head := List.head?_dropWhile_not p text
  rwa [first] at head

theorem pure_apply : (pure a : Scan α) text = some (a, text) := rfl

theorem bind_of_takes (takes : x text = some (a, rest)) : (x >>= f) text = f a rest := by
  simp only [bind, StateT.bind, takes, Option.bind_some]

theorem bind_of_fails (fails : x text = none) : (x >>= f) text = none := by
  simp only [bind, StateT.bind, fails, Option.bind_none]

theorem opt_of_takes (takes : x text = some (a, rest)) : opt x text = some (some a, rest) := by
  simp only [opt, takes]

theorem opt_of_fails (fails : x text = none) : opt x text = some (none, text) := by
  simp only [opt, fails]

theorem firstOf_of_takes {scans : List (Scan α)} (takes : x text = some (a, rest)) :
    firstOf (x :: scans) text = some (a, rest) := by
  rw [firstOf, List.findSome?_cons, takes]

theorem firstOf_of_fails {scans : List (Scan α)} (fails : x text = none) :
    firstOf (x :: scans) text = firstOf scans text := by
  rw [firstOf, List.findSome?_cons, fails, firstOf]

theorem firstOf_append_of_fails {scans others : List (Scan α)}
    (fails : ∀ x ∈ scans, x text = none) : firstOf (scans ++ others) text = firstOf others text := by
  induction scans with
  | nil => rfl
  | cons x scans ih =>
    obtain ⟨first, rest⟩ := List.forall_mem_cons.mp fails
    rw [List.cons_append, firstOf_of_fails first, ih rest]

theorem bind_eq_some {b : β} :
    (x >>= f) text = some (b, rest) ↔ ∃ a behind, x text = some (a, behind) ∧
      f a behind = some (b, rest) := by
  simp only [bind, StateT.bind, Option.bind_eq_some_iff, Prod.exists]

theorem firstOf_cons_eq_some {scans : List (Scan α)}
    (takes : firstOf (x :: scans) text = some (a, rest)) :
    x text = some (a, rest) ∨ firstOf scans text = some (a, rest) := by
  rw [firstOf, List.findSome?_cons] at takes
  split at takes
  next first => exact .inl (first.trans takes)
  next => exact .inr takes

theorem one_eq_some (takes : one p text = some (c, rest)) : text = c :: rest ∧ p c = true := by
  cases text with
  | nil => cases takes
  | cons d behind =>
    simp only [one, Option.ite_none_right_eq_some, Option.some.injEq, Prod.mk.injEq] at takes
    obtain ⟨holds, rfl, rfl⟩ := takes
    exact ⟨rfl, holds⟩

theorem char_eq_some {u : Unit} (takes : char c text = some (u, rest)) : text = c :: rest := by
  cases text with
  | nil => cases takes
  | cons d behind =>
    simp only [char, Option.ite_none_right_eq_some, Option.some.injEq, Prod.mk.injEq] at takes
    obtain ⟨rfl, -, rfl⟩ := takes
    rfl

theorem bind_one_eq_some {f : Char → Scan β} {b : β}
    (takes : (one p >>= f) text = some (b, rest)) :
    ∃ c behind, text = c :: behind ∧ p c = true ∧ f c behind = some (b, rest) := by
  obtain ⟨c, behind, taken, next⟩ := bind_eq_some.mp takes
  obtain ⟨whole, holds⟩ := one_eq_some taken
  exact ⟨c, behind, whole, holds, next⟩

theorem bind_char_eq_some {f : Unit → Scan β} {b : β}
    (takes : (char c >>= f) text = some (b, rest)) :
    ∃ behind, text = c :: behind ∧ f () behind = some (b, rest) := by
  obtain ⟨_, behind, taken, next⟩ := bind_eq_some.mp takes
  exact ⟨behind, char_eq_some taken, next⟩

theorem some1_eq_some (takes : some1 p text = some (taken, rest)) :
    text = taken ++ rest ∧ taken ≠ [] ∧ ∀ c ∈ taken, p c = true := by
  unfold some1 at takes
  split at takes
  next => cases takes
  next filled =>
    obtain ⟨rfl, rfl⟩ := Prod.mk.inj (Option.some.inj takes)
    exact ⟨List.takeWhile_append_dropWhile.symm, filled,
      fun c member => List.all_eq_true.mp List.all_takeWhile c member⟩

theorem spanUpTo_spec (p : Char → Bool) (most : Nat) (text : List Char) :
    (spanUpTo p most text).1 ++ (spanUpTo p most text).2 = text ∧
      ∀ c ∈ (spanUpTo p most text).1, p c = true := by
  induction text generalizing most with
  | nil =>
    cases most with
    | zero | succ most => exact ⟨rfl, fun c member => (List.not_mem_nil member).elim⟩
  | cons c text ih =>
    cases most with
    | zero => exact ⟨rfl, fun c member => (List.not_mem_nil member).elim⟩
    | succ most =>
      obtain ⟨whole, all⟩ := ih most
      rw [spanUpTo]
      split
      next holds => exact ⟨congrArg (c :: ·) whole, List.forall_mem_cons.mpr ⟨holds, all⟩⟩
      next => exact ⟨rfl, fun c member => (List.not_mem_nil member).elim⟩

theorem length_spanUpTo_le (p : Char → Bool) (most : Nat) (text : List Char) :
    (spanUpTo p most text).1.length ≤ most := by
  induction text generalizing most with
  | nil =>
    cases most with
    | zero | succ most => exact Nat.zero_le _
  | cons c text ih =>
    cases most with
    | zero => exact Nat.le_refl 0
    | succ most =>
      rw [spanUpTo]
      split
      next => exact Nat.succ_le_succ (ih most)
      next => exact Nat.zero_le _

theorem upTo_eq_some {most : Nat} (takes : upTo most p text = some (taken, rest)) :
    text = taken ++ rest ∧ taken ≠ [] ∧ taken.length ≤ most ∧ ∀ c ∈ taken, p c = true := by
  obtain ⟨whole, all⟩ := spanUpTo_spec p most text
  have short := length_spanUpTo_le p most text
  unfold upTo at takes
  split at takes
  next => cases takes
  next filled same =>
    obtain ⟨rfl, rfl⟩ := Prod.mk.inj (Option.some.inj takes)
    rw [same] at whole all short
    exact ⟨whole.symm, filled, short, all⟩

theorem exactly_eq_some {count : Nat} (takes : exactly count p text = some (taken, rest)) :
    text = taken ++ rest ∧ taken.length = count ∧ ∀ c ∈ taken, p c = true := by
  obtain ⟨whole, all⟩ := spanUpTo_spec p count text
  simp only [exactly, Option.ite_none_right_eq_some, Option.some.injEq] at takes
  obtain ⟨length, same⟩ := takes
  obtain ⟨rfl, rfl⟩ := Prod.mk.inj same
  exact ⟨whole.symm, length, all⟩

theorem one_takes (holds : p c = true) : one p (c :: rest) = some (c, rest) :=
  if_pos holds

theorem one_fails (stops : Stops p text) : one p text = none := by
  cases text with
  | nil => rfl
  | cons c rest => exact if_neg (Bool.eq_false_iff.mp (stops c rfl))

theorem char_takes : char c (c :: rest) = some ((), rest) :=
  if_pos rfl

theorem char_fails (stops : Stops (· == c) text) : char c text = none := by
  cases text with
  | nil => rfl
  | cons d rest => exact if_neg (beq_eq_false_iff_ne.mp (stops d rfl))

theorem takeWhile_stops (stops : Stops p text) : text.takeWhile p = [] := by
  cases text with
  | nil => rfl
  | cons c rest => rw [List.takeWhile_cons, stops c rfl]; rfl

theorem dropWhile_stops (stops : Stops p text) : text.dropWhile p = text := by
  cases text with
  | nil => rfl
  | cons c rest => rw [List.dropWhile_cons, stops c rfl]; rfl

theorem takeWhile_append (all : ∀ c ∈ taken, p c = true) (stops : Stops p rest) :
    (taken ++ rest).takeWhile p = taken := by
  rw [List.takeWhile_append_of_pos all, takeWhile_stops stops, List.append_nil]

theorem dropWhile_append (all : ∀ c ∈ taken, p c = true) (stops : Stops p rest) :
    (taken ++ rest).dropWhile p = rest := by
  rw [List.dropWhile_append_of_pos all, dropWhile_stops stops]

theorem run_takes (all : ∀ c ∈ taken, p c = true) (stops : Stops p rest) :
    run p (taken ++ rest) = some (taken, rest) := by
  rw [run, takeWhile_append all stops, dropWhile_append all stops]

theorem run_stops (stops : Stops p text) : run p text = some ([], text) := by
  rw [run, takeWhile_stops stops, dropWhile_stops stops]

theorem some1_takes (filled : taken ≠ []) (all : ∀ c ∈ taken, p c = true) (stops : Stops p rest) :
    some1 p (taken ++ rest) = some (taken, rest) := by
  rw [some1, takeWhile_append all stops, dropWhile_append all stops]
  cases taken with
  | nil => exact absurd rfl filled
  | cons c taken => rfl

theorem some1_fails (stops : Stops p text) : some1 p text = none := by
  rw [some1, takeWhile_stops stops]

theorem spanUpTo_stops {most : Nat} (stops : Stops p text) : spanUpTo p most text = ([], text) := by
  cases most with
  | zero => rfl
  | succ most =>
    cases text with
    | nil => rfl
    | cons c rest => rw [spanUpTo, stops c rfl]; rfl

theorem spanUpTo_append {most : Nat} (all : ∀ c ∈ taken, p c = true)
    (fits : taken.length = most ∨ taken.length < most ∧ Stops p rest) :
    spanUpTo p most (taken ++ rest) = (taken, rest) := by
  induction taken generalizing most with
  | nil =>
    rcases fits with rfl | ⟨-, stops⟩
    · rfl
    · exact spanUpTo_stops stops
  | cons c taken ih =>
    obtain _ | most := most
    · simp at fits
    · have tail := ih (fun d member => all d (List.mem_cons_of_mem _ member))
        (by simpa only [List.length_cons, Nat.succ_eq_add_one, Nat.add_right_cancel_iff,
          Nat.add_lt_add_iff_right] using fits)
      rw [List.cons_append, spanUpTo, if_pos (all c List.mem_cons_self), tail]

theorem upTo_takes {most : Nat} (filled : taken ≠ []) (all : ∀ c ∈ taken, p c = true)
    (fits : taken.length = most ∨ taken.length < most ∧ Stops p rest) :
    upTo most p (taken ++ rest) = some (taken, rest) := by
  rw [upTo, spanUpTo_append all fits]
  cases taken with
  | nil => exact absurd rfl filled
  | cons c taken => rfl

theorem upTo_fails {most : Nat} (stops : Stops p text) : upTo most p text = none := by
  rw [upTo, spanUpTo_stops stops]

theorem exactly_takes (all : ∀ c ∈ taken, p c = true) :
    exactly taken.length p (taken ++ rest) = some (taken, rest) := by
  rw [exactly, spanUpTo_append all (.inl rfl)]
  exact if_pos rfl

theorem exactly_fails {count : Nat} (all : ∀ c ∈ taken, p c = true) (short : taken.length < count)
    (stops : Stops p rest) : exactly count p (taken ++ rest) = none := by
  rw [exactly, spanUpTo_append all (.inr ⟨short, stops⟩)]
  exact if_neg (Nat.ne_of_lt short)

theorem exactly_stops {count : Nat} (positive : 0 < count) (stops : Stops p text) :
    exactly count p text = none := by
  rw [exactly, spanUpTo_stops stops]
  exact if_neg (Nat.ne_of_lt positive)

theorem blanks_stops (stops : Stops isBlank text) : blanks text = some ([], text) :=
  run_stops stops

theorem blanks1_fails (stops : Stops isBlank text) : blanks1 text = none :=
  some1_fails stops

theorem wordEnd_takes (stops : Stops isWordChar text) : wordEnd text = some ((), text) := by
  cases text with
  | nil => rfl
  | cons c rest => rw [wordEnd, stops c rfl]; rfl

theorem isBlank_of_bounds (low : 48 ≤ c.toNat) (high : c.toNat ≤ 122) : isBlank c = false := by
  simp only [isBlank, Bool.or_eq_false_iff, Bool.and_eq_false_iff, decide_eq_false_iff_not,
    beq_eq_false_iff_ne]
  omega

theorem toNat_bounds_of_digit (digit : isAsciiDigit c = true) : 48 ≤ c.toNat ∧ c.toNat ≤ 57 := by
  obtain ⟨low, high⟩ := Bool.and_eq_true_iff.mp digit
  exact ⟨of_decide_eq_true low, of_decide_eq_true high⟩

theorem isBlank_of_digit (digit : isAsciiDigit c = true) : isBlank c = false := by
  obtain ⟨low, high⟩ := toNat_bounds_of_digit digit
  exact isBlank_of_bounds low (by omega)

theorem toNat_bounds_of_isLower (lower : c.isLower = true) : 97 ≤ c.toNat ∧ c.toNat ≤ 122 := by
  obtain ⟨low, high⟩ := Bool.and_eq_true_iff.mp lower
  exact ⟨of_decide_eq_true low, of_decide_eq_true high⟩

theorem isBlank_of_isLower (lower : c.isLower = true) : isBlank c = false := by
  obtain ⟨low, high⟩ := toNat_bounds_of_isLower lower
  exact isBlank_of_bounds (by omega) high

theorem isBlank_of_isLower_toLower (lower : c.toLower.isLower = true) : isBlank c = false := by
  by_cases upper : 65 ≤ c.toNat ∧ c.toNat ≤ 90
  · exact isBlank_of_bounds (by omega) (by omega)
  · have same : c.toLower = c := dif_neg upper
    rw [same] at lower
    exact isBlank_of_isLower lower

theorem isWordChar_of_isLower (lower : c.isLower = true) : isWordChar c = true := by
  have letter : c.isAlpha = true := Bool.or_eq_true_iff.mpr (.inr lower)
  simp [isWordChar, Char.isAlphanum, letter]

theorem word_takes (filled : taken ≠ []) (lower : ∀ c ∈ taken, c.isLower = true)
    (ends : Stops isWordChar rest) : word (taken ++ rest) = some (String.ofList taken, rest) := by
  have noLetter : Stops Char.isLower rest := ends.mono fun _ => isWordChar_of_isLower
  rw [word, letters, bind_of_takes (some1_takes filled lower noLetter),
    bind_of_takes (wordEnd_takes ends), pure_apply]

theorem letters_fails (stops : Stops Char.isLower text) : letters text = none :=
  some1_fails stops

theorem word_fails (stops : Stops Char.isLower text) : word text = none :=
  bind_of_fails (letters_fails stops)

end ConfigExpr.Scan
