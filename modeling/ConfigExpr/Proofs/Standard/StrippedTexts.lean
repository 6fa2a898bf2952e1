import ConfigExpr.Proofs.Text.ListedCharacters
import ConfigExpr.Standard.TextFunctions

/-!
Texts without listed characters at their ends. What stripping gives depends on the list only by the
characters that this stands for, and there is nothing left to strip from it.
-/
namespace ConfigExpr.Standard
open Text

theorem trim_call (text list : String) (context : Context) :
    trim.call [.string text, .string list] context = .ok (.string (stripListed text list)) := rfl

section Strip
variable {text list : String}

theorem toList_stripListed (text list : String) :
    (stripListed text list).toList =
      strip (Intervals.ofList list.toList).contains text.toList :=
  String.toList_ofList

theorem strippedTo_stripListed (text list : String) :
    StrippedTo (listed list.toList) text.toList (stripListed text list).toList := by
  rw [toList_stripListed]
  exact strippedTo_strip (fun _ => contains_ofList) _

theorem toList_stripListed_eq {middle : List Char}
    (stripped : StrippedTo (listed list.toList) text.toList middle) :
    (stripListed text list).toList = middle := by
  rw [toList_stripListed]
  exact stripped.strip_eq fun _ => contains_ofList

theorem stripListed_eq {middle : String}
    (stripped : StrippedTo (listed list.toList) text.toList middle.toList) :
    stripListed text list = middle :=
  String.toList_inj.mp (toList_stripListed_eq stripped)

end Strip

/-- Stripping takes listed characters off both ends, where a range in the list stands for all
characters that it covers, and leaves the one middle that neither begins nor ends with a listed
character. Stripping this once more changes nothing, and any other list that stands for the same
characters leaves it, too. -/
theorem listed_characters_are_stripped (text list : String) (context : Context) :
    ∃ middle : String,
      trim.call [.string text, .string list] context = .ok (.string middle) ∧
      StrippedTo (listed list.toList) text.toList middle.toList ∧
      (∀ rest, StrippedTo (listed list.toList) text.toList rest → rest = middle.toList) ∧
      trim.call [.string middle, .string list] context = .ok (.string middle) ∧
      ∀ other : String, listed other.toList = listed list.toList →
        trim.call [.string text, .string other] context = .ok (.string middle) := by
  have stripped := strippedTo_stripListed text list
  refine ⟨stripListed text list, trim_call text list context, stripped,
    fun rest left => (toList_stripListed_eq left).symm, ?_, fun other same => ?_⟩
  · rw [trim_call, stripListed_eq stripped.self]
  · rw [← same] at stripped
    rw [trim_call, stripListed_eq stripped]

theorem listed_characters_are_stripped_letters :
    listed "dbca".toList = listed "a..d".toList ∧
      trim.call [.string "cab.token.dad", .string "a..d"] ⟨0, 0⟩ = .ok (.string ".token.") ∧
      trim.call [.string "cab.token.dad", .string "dbca"] ⟨0, 0⟩ = .ok (.string ".token.") ∧
      trim.call [.string ".token.", .string "a..d"] ⟨0, 0⟩ = .ok (.string ".token.") := by
  have same : listed "dbca".toList = listed "a..d".toList := by
    have range : Intervals.ofList "a..d".toList = [('a', 'd')] := by decide
    have singles : Intervals.ofList "dbca".toList =
        [('d', 'd'), ('b', 'b'), ('c', 'c'), ('a', 'a')] := by decide
    ext c
    rw [← contains_ofList, ← contains_ofList, range, singles]
    simp only [Intervals.contains, List.any_cons, List.any_nil, Bool.or_false, Bool.or_eq_true,
      Bool.and_eq_true, decide_eq_true_eq, Char.le_def, UInt32.le_iff_toNat_le, Char.reduceVal,
      UInt32.reduceToNat]
    omega
  have result : trim.call [.string "cab.token.dad", .string "a..d"] ⟨0, 0⟩ =
      .ok (.string ".token.") := by rfl
  obtain ⟨middle, called, -, -, again, others⟩ :=
    listed_characters_are_stripped "cab.token.dad" "a..d" ⟨0, 0⟩
  rw [result] at called
  obtain rfl := Value.string.inj (Except.ok.inj called)
  exact ⟨same, result, others _ same, again⟩

end ConfigExpr.Standard
