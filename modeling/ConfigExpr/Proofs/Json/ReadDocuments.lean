import ConfigExpr.Json.Parser
import ConfigExpr.Proofs.Fields
import ConfigExpr.Proofs.Json.Parts
import ConfigExpr.Proofs.Parameters.Ways

/-!
What holds of every document that is read. A property that the scalars of a text have, and that a
container has if all of its parts do, cannot be broken by a reader. The readers call each other, so
this is proved of all of them at once, by recursion on the steps that they have left. Two such
properties are that the names in every object are distinct, however often a text repeats them, and
that every integer is one of 64 bits, with or without a sign.
-/
namespace ConfigExpr.Json

structure KeptByReaders (P : Json → Prop) : Prop where
  null : P .null
  bool : ∀ b, P (.bool b)
  string : ∀ s, P (.string s)
  float : ∀ x finite, P (.number (.float x finite))
  integer : ∀ n : Int, -2 ^ 63 ≤ n → n < 2 ^ 64 → P (.integer n)
  array : ∀ items : List Json, (∀ item ∈ items, P item) → P (.array items)
  object : ∀ writings : List (String × Json), (∀ writing ∈ writings, P writing.2) →
    P (.object (Fields.ofList writings))

/-- A reader's result, if it is a document, has a property. -/
def ReadsOnly (P : Json → Prop) (read : Read Json) : Prop :=
  ∀ document rest, read = .ok (document, rest) → P document

section Readers
variable {P : Json → Prop} {α : Type} {document : Json} {rest s : List UInt8}
  {first second : Read Json}

theorem readsOnly_ok (holds : P document) : ReadsOnly P (.ok (document, rest)) := by
  rintro _ _ ⟨⟩
  exact holds

theorem readsOnly_error (failure : Failure) : ReadsOnly P (.error failure) := by
  rintro _ _ ⟨⟩

theorem readsOnly_bind {read : Read α} {next : α × List UInt8 → Read Json}
    (each : ∀ a rest, read = .ok (a, rest) → ReadsOnly P (next (a, rest))) :
    ReadsOnly P (read.bind next) := by
  cases read with
  | error failure => exact readsOnly_error failure
  | ok result => exact each result.1 result.2 rfl

theorem readsOnly_ite {condition : Prop} [Decidable condition] (yes : ReadsOnly P first)
    (no : ReadsOnly P second) : ReadsOnly P (if condition then first else second) := by
  split
  · exact yes
  · exact no

theorem readWord_only (holds : P document) (word : List Char) :
    ReadsOnly P (readWord document word s) := by
  induction word generalizing s with
  | nil => exact readsOnly_ok holds
  | cons c word ih =>
    cases s with
    | nil => exact readsOnly_error _
    | cons b rest => exact readsOnly_ite ih (readsOnly_error _)

theorem appendDigits_fst_lt {significand : Nat} (small : significand < 2 ^ 64) (digits : List Nat) :
    (appendDigits significand digits).1 < 2 ^ 64 := by
  induction digits generalizing significand with
  | nil => exact small
  | cons digit rest ih =>
    simp only [appendDigits]
    split
    · next fits => exact ih fits
    · exact small

theorem significand_ofDigits_lt (whole fraction : List Nat) :
    (Magnitude.ofDigits whole fraction).significand < 2 ^ 64 :=
  appendDigits_fst_lt (appendDigits_fst_lt (by decide) whole) fraction

theorem floatRead_only (kept : KeptByReaders P) (x : Binary64) : ReadsOnly P (floatRead x s) := by
  rw [floatRead]
  split
  · next finite => exact readsOnly_ok (kept.float x finite)
  · exact readsOnly_error _

theorem readScaled_only (kept : KeptByReaders P) (negative : Bool) (m : Magnitude) :
    ReadsOnly P (readScaled negative m s) := by
  cases s with
  | nil => exact floatRead_only kept _
  | cons mark rest =>
    refine readsOnly_ite (readsOnly_bind ?_) (floatRead_only kept _)
    rintro ⟨below, exponent⟩ rest -
    dsimp only
    split
    · exact floatRead_only kept _
    · exact readsOnly_ite (readsOnly_error _) (floatRead_only kept _)

theorem readInteger_only (kept : KeptByReaders P) (negative : Bool) (whole : List Nat) :
    ReadsOnly P (readInteger negative whole s) := by
  have bound := significand_ofDigits_lt whole []
  rw [readInteger]
  split
  · exact readsOnly_ok (kept.integer _ (by omega) (by omega))
  · split
    · next signed =>
      simp only [Bool.and_eq_true, decide_eq_true_eq] at signed
      exact readsOnly_ok (kept.integer _ (by omega) (by omega))
    · exact floatRead_only kept _

theorem readNumberTail_only (kept : KeptByReaders P) (negative : Bool) (whole : List Nat) :
    ReadsOnly P (readNumberTail negative whole s) := by
  cases s with
  | nil => exact readInteger_only kept negative whole
  | cons mark rest =>
    refine readsOnly_ite ?_
      (readsOnly_ite (readScaled_only kept _ _) (readInteger_only kept _ _))
    split
    · exact readsOnly_error _
    · exact readsOnly_error _
    · exact readScaled_only kept _ _

theorem readNumber_only (kept : KeptByReaders P) (negative : Bool) :
    ReadsOnly P (readNumber negative s) := by
  cases s with
  | nil => exact readsOnly_error _
  | cons b rest =>
    refine readsOnly_ite ?_ (readsOnly_ite (readNumberTail_only kept _ _)
      (readsOnly_error _))
    cases rest with
    | nil => exact readNumberTail_only kept _ _
    | cons next behind =>
      exact readsOnly_ite (readsOnly_error _) (readNumberTail_only kept _ _)

mutual

theorem readDocument_only (kept : KeptByReaders P) : ∀ (steps room : Nat) (s : List UInt8),
    ReadsOnly P (readDocument steps room s)
  | 0, _, _ => by
    rw [readDocument]
    exact readsOnly_error _
  | steps + 1, room, s => by
    rw [readDocument]
    split
    · exact readsOnly_error _
    · refine readsOnly_ite (readWord_only kept.null _)
        (readsOnly_ite (readWord_only (kept.bool _) _)
        (readsOnly_ite (readWord_only (kept.bool _) _) (readsOnly_ite (readNumber_only kept _)
        (readsOnly_ite (readNumber_only kept _) (readsOnly_ite ?_
        (readsOnly_ite ?_ (readsOnly_ite ?_ (readsOnly_error _))))))))
      · exact readsOnly_bind fun _ _ _ => readsOnly_ok (kept.string _)
      · split
        · exact readsOnly_error _
        · exact readFirstItem_only kept steps _ _
      · split
        · exact readsOnly_error _
        · exact readFirstField_only kept steps _ _

theorem readFirstItem_only (kept : KeptByReaders P) : ∀ (steps room : Nat) (s : List UInt8),
    ReadsOnly P (readFirstItem steps room s)
  | 0, _, _ => by
    rw [readFirstItem]
    exact readsOnly_error _
  | steps + 1, room, s => by
    rw [readFirstItem]
    split
    · exact readsOnly_error _
    · refine readsOnly_ite (readsOnly_ok (kept.array _ (List.forall_mem_nil _)))
        (readsOnly_bind fun item rest read => ?_)
      exact readItems_only kept steps room _ _
        (List.forall_mem_singleton.mpr (readDocument_only kept steps room _ item rest read))

theorem readItems_only (kept : KeptByReaders P) :
    ∀ (steps room : Nat) (seen : List Json) (s : List UInt8),
    (∀ item ∈ seen, P item) → ReadsOnly P (readItems steps room seen s)
  | 0, _, _, _, _ => by
    rw [readItems]
    exact readsOnly_error _
  | steps + 1, room, seen, s, each => by
    rw [readItems]
    split
    · exact readsOnly_error _
    · refine readsOnly_ite (readsOnly_ok (kept.array _ fun item held =>
        each item (List.mem_reverse.mp held))) (readsOnly_ite ?_ (readsOnly_error _))
      split
      · exact readsOnly_error _
      · refine readsOnly_ite (readsOnly_error _) (readsOnly_bind fun item rest read => ?_)
        exact readItems_only kept steps room _ _
          (List.forall_mem_cons.mpr ⟨readDocument_only kept steps room _ item rest read, each⟩)

theorem readFirstField_only (kept : KeptByReaders P) : ∀ (steps room : Nat) (s : List UInt8),
    ReadsOnly P (readFirstField steps room s)
  | 0, _, _ => by
    rw [readFirstField]
    exact readsOnly_error _
  | steps + 1, room, s => by
    rw [readFirstField]
    split
    · exact readsOnly_error _
    · exact readsOnly_ite (readsOnly_ok (kept.object _ (List.forall_mem_nil _)))
        (readsOnly_ite (readField_only kept steps room _ _ (List.forall_mem_nil _))
        (readsOnly_error _))

theorem readField_only (kept : KeptByReaders P) :
    ∀ (steps room : Nat) (seen : List (String × Json)) (s : List UInt8),
    (∀ field ∈ seen, P field.2) → ReadsOnly P (readField steps room seen s)
  | 0, _, _, _, _ => by
    rw [readField]
    exact readsOnly_error _
  | steps + 1, room, seen, s, each => by
    rw [readField]
    refine readsOnly_bind fun name rest _ => ?_
    dsimp only
    split
    · exact readsOnly_error _
    · refine readsOnly_ite (readsOnly_bind fun item rest read => ?_) (readsOnly_error _)
      exact readFields_only kept steps room _ _
        (List.forall_mem_cons.mpr ⟨readDocument_only kept steps room _ item rest read, each⟩)

theorem readFields_only (kept : KeptByReaders P) :
    ∀ (steps room : Nat) (seen : List (String × Json)) (s : List UInt8),
    (∀ field ∈ seen, P field.2) → ReadsOnly P (readFields steps room seen s)
  | 0, _, _, _, _ => by
    rw [readFields]
    exact readsOnly_error _
  | steps + 1, room, seen, s, each => by
    rw [readFields]
    split
    · exact readsOnly_error _
    · refine readsOnly_ite (readsOnly_ok (kept.object _ fun field held =>
        each field (List.mem_reverse.mp held))) (readsOnly_ite ?_ (readsOnly_error _))
      split
      · exact readsOnly_error _
      · exact readsOnly_ite (readField_only kept steps room _ _ each)
          (readsOnly_ite (readsOnly_error _) (readsOnly_error _))

end

theorem parseBytes_only (kept : KeptByReaders P) {nesting : Nat} {bytes : List UInt8}
    (parsed : parseBytes nesting bytes = .ok document) : P document := by
  simp only [parseBytes] at parsed
  split at parsed
  · next result behind read =>
    obtain rfl := Except.ok.inj parsed
    refine readsOnly_bind (fun inner rest inside => ?_) result behind read
    dsimp only
    split
    · exact readsOnly_ok (readDocument_only kept _ _ _ inner rest inside)
    · exact readsOnly_error _
  · cases parsed

theorem parse_only (kept : KeptByReaders P) {text : String}
    (parsed : parse text = .ok document) : P document :=
  parseBytes_only kept parsed

end Readers

theorem hasDistinctNames_keptByReaders : KeptByReaders HasDistinctNames where
  null := everyObject_of_scalar rfl
  bool _ := everyObject_of_scalar rfl
  string _ := everyObject_of_scalar rfl
  float _ _ := everyObject_of_scalar rfl
  integer _ _ _ := everyObject_of_scalar rfl
  array _ each := everyObject_array.mpr each
  object writings each := everyObject_object.mpr ⟨Fields.nodup_names_ofList writings,
    fun field held => each field (Fields.mem_of_mem_ofList held)⟩

theorem integersAreWords_keptByReaders : KeptByReaders IntegersAreWords where
  null _ inside := nomatch inside
  bool _ _ inside := nomatch inside
  string _ _ inside := nomatch inside
  float _ _ _ inside := nomatch inside
  integer _ low high := everyInteger_integer.mpr ⟨low, high⟩
  array _ each := everyInteger_array.mpr each
  object _ each :=
    everyInteger_object.mpr fun field held => each field (Fields.mem_of_mem_ofList held)

theorem hasDistinctNames_of_parse {document : Json} {text : String}
    (parsed : parse text = .ok document) : HasDistinctNames document :=
  parse_only hasDistinctNames_keptByReaders parsed

theorem integersAreWords_of_parse {document : Json} {text : String}
    (parsed : parse text = .ok document) : document.IntegersAreWords :=
  parse_only integersAreWords_keptByReaders parsed

end ConfigExpr.Json
