import ConfigExpr.Proofs.Text.DecimalLiterals
import ConfigExpr.Text.Radix

/-!
Integers in other bases, as they are written: blanks, a sign, the mark of the base, digits and a rest
that does not go on with one. Every text is such a numeral. The magnitude is put together in
arithmetic of 64 bits that is checked at every step, so it is exact as far as it gets; where it does
not get to the last digit, the number is beyond 64 bits.
-/
namespace ConfigExpr.Text.Radix
open Scan

/-- The letters that mark a base behind a zero, in either case. -/
def markLetters : List (Char × ℕ) :=
  [('x', 16), ('X', 16), ('o', 8), ('O', 8), ('b', 2), ('B', 2)]

/-- The mark that stands in front of digits, and the base in which they are read. A base takes its own
mark if it is there; base 0 takes any mark, and a zero without a letter for the mark of base 8. -/
inductive Marked : (base : ℕ) → (mark : List Char) → (used : ℕ) → (behind : List Char) → Prop
  | letter {base used : ℕ} {c : Char} (known : (c, used) ∈ markLetters)
      (wanted : base = 0 ∨ base = used) (behind : List Char) : Marked base ['0', c] used behind
  | zero {behind : List Char} (alone : ∀ m ∈ markLetters, behind.head? ≠ some m.1) :
      Marked 0 ['0'] 8 behind
  | absent {base : ℕ} {behind : List Char} (given : base ≠ 0)
      (unmarked : ∀ c, (c, base) ∈ markLetters → ¬ ['0', c] <+: behind) : Marked base [] base behind
  | decimal {behind : List Char} (unmarked : behind.head? ≠ some '0') : Marked 0 [] 10 behind

theorem eq_or_toNat_of_toLower_eq {c d : Char} (same : c.toLower = d) :
    c = d ∨ c.toNat + 32 = d.toNat := by
  unfold Char.toLower at same
  split at same
  next upper =>
    have high : c.val.toNat ≤ 90 := upper.2
    have sum : (c.val + 32).toNat = c.val.toNat + 32 := by
      rw [UInt32.toNat_add]
      exact Nat.mod_eq_of_lt (show c.val.toNat + 32 < 2 ^ 32 by omega)
    exact .inr (sum.symm.trans (congrArg Char.toNat same))
  next => exact .inl same

theorem markedBase?_eq_some {c : Char} {used : ℕ} :
    markedBase? c = some used ↔ (c, used) ∈ markLetters := by
  constructor
  · intro marked
    have either {d e : Char} (same : c.toLower = d) (upper : e.toNat + 32 = d.toNat) :
        c = d ∨ c = e :=
      (eq_or_toNat_of_toLower_eq same).imp_right fun sum =>
        Char.toNat_inj.mp (Nat.add_right_cancel (sum.trans upper.symm))
    unfold markedBase? at marked
    split at marked
    next x =>
      obtain rfl := Option.some.inj marked
      rcases either (e := 'X') x rfl with rfl | rfl <;> decide
    next o =>
      obtain rfl := Option.some.inj marked
      rcases either (e := 'O') o rfl with rfl | rfl <;> decide
    next b =>
      obtain rfl := Option.some.inj marked
      rcases either (e := 'B') b rfl with rfl | rfl <;> decide
    next => cases marked
  · have each : ∀ m ∈ markLetters, markedBase? m.1 = some m.2 := by decide
    exact each (c, used)

theorem Marked.takeMark_eq {base used : ℕ} {mark behind : List Char}
    (marked : Marked base mark used behind) : takeMark base (mark ++ behind) = (used, behind) := by
  cases marked with
  | letter known wanted =>
    have shown : (base = 0 || base = used) = true := by simpa using wanted
    simp only [List.cons_append, List.nil_append, takeMark, markedBase?_eq_some.mpr known, shown,
      if_true]
  | zero alone =>
    cases behind with
    | nil => rfl
    | cons c rest =>
      have other : markedBase? c = none :=
        Option.eq_none_iff_forall_ne_some.mpr fun used known =>
          alone _ (markedBase?_eq_some.mp known) rfl
      simp only [List.cons_append, List.nil_append, takeMark, other, if_true]
  | absent given unmarked =>
    rw [List.nil_append]
    unfold takeMark
    split
    next c rest =>
      split
      next marked known =>
        have other : base ≠ marked := by
          rintro rfl
          exact unmarked c (markedBase?_eq_some.mp known) ⟨rest, rfl⟩
        simp [given, other]
      next => rw [if_neg given]
    next => rw [if_neg given]
    next => rw [if_neg given]
  | decimal unmarked =>
    rw [List.nil_append]
    unfold takeMark
    split
    next => exact absurd rfl unmarked
    next => exact absurd rfl unmarked
    next => rfl

theorem exists_marked (base : ℕ) (text : List Char) :
    ∃ mark used behind, text = mark ++ behind ∧ Marked base mark used behind := by
  by_cases given : base = 0
  · subst given
    rcases text with _ | ⟨c, rest⟩
    · exact ⟨[], 10, [], rfl, .decimal nofun⟩
    by_cases zero : c = '0'
    · subst zero
      by_cases lettered : ∃ m ∈ markLetters, rest.head? = some m.1
      · obtain ⟨⟨letter, used⟩, known, first⟩ := lettered
        obtain ⟨behind, rfl⟩ := List.head?_eq_some_iff.mp first
        exact ⟨['0', letter], used, behind, rfl, .letter known (.inl rfl) behind⟩
      · exact ⟨['0'], 8, rest, rfl, .zero fun m known first => lettered ⟨m, known, first⟩⟩
    · exact ⟨[], 10, c :: rest, rfl, .decimal fun first => zero (Option.some.inj first)⟩
  · by_cases own : ∃ c, (c, base) ∈ markLetters ∧ ['0', c] <+: text
    · obtain ⟨c, known, behind, rfl⟩ := own
      exact ⟨['0', c], base, behind, rfl, .letter known (.inr rfl) behind⟩
    · exact ⟨[], base, text, rfl, .absent given fun c known starts => own ⟨c, known, starts⟩⟩

theorem Marked.used_bounds {base used : ℕ} {mark behind : List Char}
    (marked : Marked base mark used behind) (range : base = 0 ∨ 2 ≤ base ∧ base ≤ 36) :
    2 ≤ used ∧ used ≤ 36 := by
  cases marked with
  | letter known wanted =>
    have each : ∀ m ∈ markLetters, 2 ≤ m.2 ∧ m.2 ≤ 36 := by decide
    exact each _ known
  | zero alone | decimal unmarked => decide
  | absent given unmarked => exact range.resolve_left given

theorem overflowFlag_eq (n : ℕ) :
    (decide ((n : ℤ) ≥ 2 ^ (64 - 1)) || decide ((n : ℤ) < -2 ^ (64 - 1))) =
      decide (2 ^ 63 ≤ n) := by
  rw [← Bool.decide_or, decide_eq_decide]
  omega

theorem smulOverflow_ofNat {m n : ℕ} (left : m < 2 ^ 63) (right : n < 2 ^ 63) :
    (Int64.ofNat m).toBitVec.smulOverflow (Int64.ofNat n).toBitVec = decide (2 ^ 63 ≤ m * n) := by
  rw [BitVec.smulOverflow, Int64.toInt_toBitVec, Int64.toInt_toBitVec,
    Int64.toInt_ofNat_of_lt left, Int64.toInt_ofNat_of_lt right, ← Int.natCast_mul, overflowFlag_eq]

theorem saddOverflow_ofNat {m n : ℕ} (left : m < 2 ^ 63) (right : n < 2 ^ 63) :
    (Int64.ofNat m).toBitVec.saddOverflow (Int64.ofNat n).toBitVec = decide (2 ^ 63 ≤ m + n) := by
  rw [BitVec.saddOverflow, Int64.toInt_toBitVec, Int64.toInt_toBitVec,
    Int64.toInt_ofNat_of_lt left, Int64.toInt_ofNat_of_lt right, ← Int.natCast_add, overflowFlag_eq]

theorem toInt_neg_ofNat {n : ℕ} (fits : n < 2 ^ 63) : (-Int64.ofNat n).toInt = -(n : ℤ) := by
  rw [Int64.neg_ofNat]
  exact Int64.toInt_ofInt_of_le (by omega) (by omega)

section Magnitudes
variable {base : ℕ} (small : base ≤ 36)
include small

theorem appendDigit?_eq {magnitude digit : ℕ} (fits : magnitude < 2 ^ 63) (known : digit < base) :
    appendDigit? base (Int64.ofNat magnitude) digit =
      if magnitude * base + digit < 2 ^ 63 then some (Int64.ofNat (magnitude * base + digit))
      else none := by
  rw [appendDigit?, smulOverflow_ofNat fits (by omega), ← Int64.ofNat_mul]
  by_cases large : 2 ^ 63 ≤ magnitude * base
  · have beyond : ¬ magnitude * base + digit < 2 ^ 63 := by omega
    rw [if_pos (decide_eq_true large), if_neg beyond]
  · rw [if_neg (by simpa using large)]
    dsimp only
    rw [saddOverflow_ofNat (by omega) (by omega), ← Int64.ofNat_add]
    by_cases more : 2 ^ 63 ≤ magnitude * base + digit
    · rw [if_pos (decide_eq_true more), if_neg (Nat.not_lt.mpr more)]
    · rw [if_neg (by simpa using more), if_pos (Nat.lt_of_not_le more)]

theorem foldlM_appendDigit? {digits : List ℕ} (known : ∀ digit ∈ digits, digit < base) {start : ℕ}
    (fits : start < 2 ^ 63) :
    digits.foldlM (appendDigit? base) (Int64.ofNat start) =
      if start * base ^ digits.length + ofDigits base digits < 2 ^ 63 then
        some (Int64.ofNat (start * base ^ digits.length + ofDigits base digits))
      else none := by
  induction digits generalizing start with
  | nil => simp [ofDigits, fits]
  | cons digit digits ih =>
    obtain ⟨first, others⟩ := List.forall_mem_cons.mp known
    have whole : start * base ^ (digits.length + 1) + ofDigits base (digit :: digits) =
        (start * base + digit) * base ^ digits.length + ofDigits base digits := by
      rw [ofDigits, List.foldl_cons, foldl_digits]
      ring
    rw [List.foldlM_cons, appendDigit?_eq small fits first, List.length_cons, whole]
    by_cases next : start * base + digit < 2 ^ 63
    · rw [if_pos next]
      exact ih others next
    · -- What is beyond 63 bits already stays beyond them.
      have power : 1 ≤ base ^ digits.length := Nat.one_le_pow _ _ (by omega)
      have more := Nat.le_mul_of_pos_right (start * base + digit) power
      rw [if_neg next, if_neg (by omega)]
      rfl

theorem magnitude?_eq {digits : List ℕ} (known : ∀ digit ∈ digits, digit < base) :
    magnitude? base digits =
      if ofDigits base digits < 2 ^ 63 then some (Int64.ofNat (ofDigits base digits)) else none := by
  have run := foldlM_appendDigit? small known (show 0 < 2 ^ 63 by decide)
  rwa [Nat.zero_mul, Nat.zero_add] at run

theorem magnitude?_exact {digits : List ℕ} (known : ∀ digit ∈ digits, digit < base) :
    (∀ m, magnitude? base digits = some m →
      m.toInt = ofDigits base digits ∧ (-m).toInt = -(ofDigits base digits : ℤ)) ∧
    (magnitude? base digits = none ↔ 2 ^ 63 ≤ ofDigits base digits) := by
  rw [magnitude?_eq small known]
  refine ⟨fun m found => ?_, ?_⟩
  · obtain ⟨fits, same⟩ := Option.ite_none_right_eq_some.mp found
    obtain rfl := Option.some.inj same
    exact ⟨Int64.toInt_ofNat_of_lt fits, toInt_neg_ofNat fits⟩
  · rw [ite_eq_right_iff]
    exact ⟨fun beyond => Nat.le_of_not_lt fun fits => Option.some_ne_none _ (beyond fits),
      fun beyond fits => absurd fits (Nat.not_lt.mpr beyond)⟩

end Magnitudes

theorem digitIn?_lt {base digit : ℕ} {c : Char} (known : digitIn? base c = some digit) :
    digit < base := by
  unfold digitIn? at known
  dsimp only at known
  obtain ⟨less, same⟩ := Option.ite_none_right_eq_some.mp known
  rwa [Option.some.inj same] at less

structure RadixNumeral (base : ℕ) where
  blanks : List Char
  sign : WrittenSign
  mark : List Char
  used : ℕ
  digits : List Char
  rest : List Char
  blank : ∀ c ∈ blanks, isBlank c = true
  starts : Stops isBlank (sign.text ++ (mark ++ (digits ++ rest)))
  unsigned : sign = .absent → Stops (['+', '-'].contains ·) (mark ++ (digits ++ rest))
  marked : Marked base mark used (digits ++ rest)
  known : ∀ c ∈ digits, (digitIn? used c).isSome = true
  ends : Stops (fun c => (digitIn? used c).isSome) rest

namespace RadixNumeral
variable {base : ℕ} (n : RadixNumeral base)

def text : List Char :=
  n.blanks ++ (n.sign.text ++ (n.mark ++ (n.digits ++ n.rest)))

def values : List ℕ :=
  n.digits.filterMap (digitIn? n.used)

def magnitude : ℕ :=
  ofDigits n.used n.values

def value : ℤ :=
  if n.sign.isMinus then -(n.magnitude : ℤ) else n.magnitude

theorem lt_used {digit : ℕ} (member : digit ∈ n.values) : digit < n.used := by
  obtain ⟨c, -, known⟩ := List.mem_filterMap.mp member
  exact digitIn?_lt known

end RadixNumeral

theorem leadingDigits_append {base : ℕ} {digits rest : List Char}
    (known : ∀ c ∈ digits, (digitIn? base c).isSome = true)
    (ends : Stops (fun c => (digitIn? base c).isSome) rest) :
    leadingDigits base (digits ++ rest) = digits.filterMap (digitIn? base) := by
  induction digits with
  | nil =>
    cases rest with
    | nil => rfl
    | cons c rest =>
      have none : digitIn? base c = none :=
        Option.isNone_iff_eq_none.mp (Option.isSome_eq_false_iff.mp (ends c rfl))
      rw [List.nil_append, leadingDigits, none]
      rfl
  | cons c digits ih =>
    obtain ⟨first, others⟩ := List.forall_mem_cons.mp known
    obtain ⟨digit, same⟩ := Option.isSome_iff_exists.mp first
    rw [List.cons_append, leadingDigits, same, List.filterMap_cons_some same, ih others]

namespace RadixNumeral
variable {base : ℕ}

theorem exists_text_eq (base : ℕ) (text : List Char) : ∃ n : RadixNumeral base, n.text = text := by
  have blanks : text.takeWhile isBlank ++ text.dropWhile isBlank = text :=
    List.takeWhile_append_dropWhile
  have starts := stops_dropWhile isBlank text
  generalize text.dropWhile isBlank = behind at blanks starts
  obtain ⟨sign, unsignedText, rfl, unsigned⟩ := exists_sign behind
  obtain ⟨mark, used, numeral, rfl, marked⟩ := exists_marked base unsignedText
  have digits : numeral.takeWhile (fun c => (digitIn? used c).isSome) ++
      numeral.dropWhile (fun c => (digitIn? used c).isSome) = numeral :=
    List.takeWhile_append_dropWhile
  rw [← digits] at starts unsigned marked
  refine ⟨{
    blanks := text.takeWhile isBlank
    sign, mark, used
    digits := numeral.takeWhile fun c => (digitIn? used c).isSome
    rest := numeral.dropWhile fun c => (digitIn? used c).isSome
    blank := fun c => List.all_eq_true.mp List.all_takeWhile c
    starts, unsigned, marked
    known := fun c => List.all_eq_true.mp List.all_takeWhile c
    ends := stops_dropWhile _ numeral }, ?_⟩
  rw [RadixNumeral.text, digits, blanks]

theorem parse_text (n : RadixNumeral base) (small : n.used ≤ 36) :
    parse base (String.ofList n.text) = signed n.sign.isMinus
      (if n.magnitude < 2 ^ 63 then some (Int64.ofNat n.magnitude) else none) := by
  have stripped : stripStart isBlank (String.ofList n.text).toList =
      n.sign.text ++ (n.mark ++ (n.digits ++ n.rest)) := by
    rw [String.toList_ofList]
    exact dropWhile_append n.blank n.starts
  have unsigned : unsigned? base (n.mark ++ (n.digits ++ n.rest)) =
      if n.magnitude < 2 ^ 63 then some (Int64.ofNat n.magnitude) else none := by
    rw [unsigned?, n.marked.takeMark_eq]
    dsimp only
    rw [leadingDigits_append n.known n.ends]
    exact magnitude?_eq small fun digit => n.lt_used
  have bare := n.unsigned
  rw [parse, stripped, ← unsigned]
  cases sign : n.sign with
  | minus | plus => rfl
  | absent =>
    rw [WrittenSign.text, List.nil_append]
    replace bare := bare sign
    generalize n.mark ++ (n.digits ++ n.rest) = behind at bare
    split
    next => exact absurd (bare '-' rfl) (by decide)
    next => exact absurd (bare '+' rfl) (by decide)
    next => rfl

theorem toInt_parse_text (n : RadixNumeral base) (small : n.used ≤ 36) :
    (parse base (String.ofList n.text)).toInt = max (-2 ^ 63) (min n.value (2 ^ 63 - 1)) := by
  rw [parse_text n small, value]
  by_cases fits : n.magnitude < 2 ^ 63
  · have exact : (Int64.ofNat n.magnitude).toInt = n.magnitude := Int64.toInt_ofNat_of_lt fits
    have opposite := toInt_neg_ofNat fits
    rw [if_pos fits]
    cases n.sign.isMinus with
    | true =>
      rw [signed, if_pos rfl, if_pos rfl, opposite]
      omega
    | false =>
      rw [signed, if_neg Bool.false_ne_true, if_neg Bool.false_ne_true, exact]
      omega
  · rw [if_neg fits]
    cases n.sign.isMinus with
    | true =>
      rw [signed, if_pos rfl, if_pos rfl, Int64.toInt_minValue]
      omega
    | false =>
      rw [signed, if_neg Bool.false_ne_true, if_neg Bool.false_ne_true, Int64.toInt_maxValue]
      omega

end RadixNumeral

end ConfigExpr.Text.Radix
