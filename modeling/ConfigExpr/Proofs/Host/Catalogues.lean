import ConfigExpr.Host.Function
import ConfigExpr.Proofs.Fields
import Mathlib.Data.Finset.Card
import Mathlib.Data.List.Induction

/-!
Catalogues as what was registered into them, one function after the other. A name stands for the
function that was registered last under it, every name is listed once, and the list is sorted.
-/
namespace ConfigExpr

/-- No function of the same name is registered after it. -/
def RegisteredLast (functions : List HostFunction) (f : HostFunction) : Prop :=
  ∃ before behind, functions = before ++ f :: behind ∧ ∀ g ∈ behind, g.name ≠ f.name

theorem RegisteredLast.mem {functions : List HostFunction} {f : HostFunction}
    (last : RegisteredLast functions f) : f ∈ functions := by
  obtain ⟨before, behind, rfl, -⟩ := last
  exact List.mem_append_right before List.mem_cons_self

namespace Catalogue

section Lookup
variable {functions : List HostFunction} {f : HostFunction} {name : String}

theorem functions_ofList (functions : List HostFunction) :
    (ofList functions).functions = Fields.ofList (functions.map fun f => (f.name, f)) := by
  rw [Fields.ofList, List.foldl_map]
  exact (List.foldl_hom Catalogue.functions fun _ _ => rfl).symm

theorem ofList_concat : ofList (functions ++ [f]) = (ofList functions).register f := by
  rw [ofList, List.foldl_append]
  rfl

theorem find?_register (c : Catalogue) (f : HostFunction) (name : String) :
    (c.register f).find? name = if name = f.name then some f else c.find? name :=
  Fields.find?_insert c.functions f.name name f

theorem invoke_register (c : Catalogue) (f : HostFunction) (other : name ≠ f.name) :
    (c.register f).invoke name = c.invoke name := by
  funext args context
  rw [invoke, invoke, find?_register, if_neg other]

theorem find?_ofList (functions : List HostFunction) (name : String) :
    (ofList functions).find? name = functions.reverse.find? fun f => f.name == name := by
  induction functions using List.reverseRecOn with
  | nil => rfl
  | append_singleton functions f ih =>
    rw [ofList_concat, find?_register, ih, List.reverse_append, List.reverse_singleton,
      List.singleton_append, List.find?_cons]
    by_cases same : f.name = name
    · rw [if_pos same.symm, beq_iff_eq.mpr same]
    · rw [if_neg (Ne.symm same), beq_eq_false_iff_ne.mpr same]

theorem find?_ofList_eq_some :
    (ofList functions).find? name = some f ↔ RegisteredLast functions f ∧ f.name = name := by
  simp only [find?_ofList, List.find?_eq_some_iff_append, beq_iff_eq, Bool.not_eq_true',
    beq_eq_false_iff_ne]
  constructor
  · rintro ⟨rfl, behind, before, reversed, others⟩
    refine ⟨⟨before.reverse, behind.reverse, ?_, fun g member =>
      others g (List.mem_reverse.mp member)⟩, rfl⟩
    rw [← List.reverse_reverse functions, reversed, List.reverse_append, List.reverse_cons,
      List.append_assoc, List.singleton_append]
  · rintro ⟨⟨before, behind, rfl, others⟩, rfl⟩
    refine ⟨rfl, behind.reverse, before.reverse, ?_, fun g member =>
      others g (List.mem_reverse.mp member)⟩
    rw [List.reverse_append, List.reverse_cons, List.append_assoc, List.singleton_append]

theorem mem_of_find?_ofList (found : (ofList functions).find? name = some f) : f ∈ functions :=
  (find?_ofList_eq_some.mp found).1.mem

theorem find?_ofList_eq_none :
    (ofList functions).find? name = none ↔ ∀ f ∈ functions, f.name ≠ name := by
  simp only [find?_ofList, List.find?_eq_none, List.mem_reverse, beq_iff_eq, ne_eq]

theorem invoke_ofList (last : RegisteredLast functions f) :
    (ofList functions).invoke f.name = f.call := by
  funext args context
  rw [invoke, find?_ofList_eq_some.mpr ⟨last, rfl⟩]

end Lookup

section Names
variable {functions : List HostFunction} {name : String}

theorem nodup_ofList (functions : List HostFunction) :
    (ofList functions).functions.names.Nodup := by
  rw [functions_ofList]
  exact Fields.nodup_names_ofList _

theorem mem_names_functions :
    name ∈ (ofList functions).functions.names ↔ name ∈ functions.map HostFunction.name := by
  rw [functions_ofList, Fields.mem_names_ofList, Fields.names, List.map_map]
  rfl

theorem mem_names_ofList :
    name ∈ (ofList functions).names ↔ ∃ f ∈ functions, f.name = name := by
  rw [names, List.mem_mergeSort, mem_names_functions, List.mem_map]

theorem pairwise_names_ofList (functions : List HostFunction) :
    (ofList functions).names.Pairwise (· < ·) := by
  have sorted : (ofList functions).names.Pairwise (· ≤ ·) := by
    refine (List.pairwise_mergeSort ?_ ?_ _).imp of_decide_eq_true
    · simpa using fun a b c => String.le_trans
    · simpa using fun a b => String.le_total a b
  have distinct : (ofList functions).names.Nodup :=
    (List.mergeSort_perm _ _).nodup_iff.mpr (nodup_ofList functions)
  exact sorted.imp₂ (fun _ _ => Std.lt_of_le_of_ne) distinct

theorem size_eq_length_names (c : Catalogue) : c.size = c.names.length := by
  rw [names, List.length_mergeSort, Fields.names, List.length_map, size]

theorem size_ofList (functions : List HostFunction) :
    (ofList functions).size = (functions.map HostFunction.name).toFinset.card := by
  have counted : (ofList functions).functions.names.toFinset.card = (ofList functions).size := by
    rw [List.toFinset_card_of_nodup (nodup_ofList functions), Fields.names, List.length_map, size]
  rw [← counted]
  congr 1
  ext name
  rw [List.mem_toFinset, List.mem_toFinset, mem_names_functions]

end Names

end Catalogue

end ConfigExpr
