/-!
Named fields in the order in which they were first written. Writing a name again keeps its place and
takes the new content, so no two fields have one name.
-/
namespace ConfigExpr

abbrev Fields (α : Type) := List (String × α)

namespace Fields
variable {α : Type}

def names (fields : Fields α) : List String :=
  fields.map Prod.fst

def find? (fields : Fields α) (name : String) : Option α :=
  List.lookup name fields

def insert (fields : Fields α) (name : String) (content : α) : Fields α :=
  match fields with
  | [] => [(name, content)]
  | (key, old) :: rest =>
    if key = name then (key, content) :: rest else (key, old) :: insert rest name content

/-- The fields that a list of writings leaves, applied from left to right. -/
def ofList (writings : List (String × α)) : Fields α :=
  writings.foldl (fun fields writing => insert fields writing.1 writing.2) []

theorem names_insert (fields : Fields α) (name : String) (content : α) :
    (insert fields name content).names =
      if name ∈ names fields then names fields else names fields ++ [name] := by
  induction fields with
  | nil => simp [insert, names]
  | cons field rest ih =>
    obtain ⟨key, old⟩ := field
    by_cases same : key = name
    · simp [insert, names, same]
    · have other : ¬ name = key := fun h => same h.symm
      simp only [names] at ih
      by_cases seen : name ∈ rest.map Prod.fst
      · simp [insert, names, same, ih, seen]
      · simp [insert, names, same, other, ih, seen]

theorem nodup_names_insert {fields : Fields α} (name : String) (content : α)
    (distinct : fields.names.Nodup) : (insert fields name content).names.Nodup := by
  rw [names_insert]
  split
  · exact distinct
  · next fresh =>
    rw [List.nodup_append]
    refine ⟨distinct, by simp, fun a held b added same => ?_⟩
    rw [List.mem_singleton] at added
    exact fresh (added ▸ same ▸ held)

theorem nodup_names_ofList (writings : List (String × α)) : (ofList writings).names.Nodup := by
  suffices h : ∀ fields : Fields α, fields.names.Nodup →
      (names (writings.foldl (fun fields writing => insert fields writing.1 writing.2)
        fields)).Nodup from h [] (by simp [names])
  induction writings with
  | nil => exact fun _ h => h
  | cons writing rest ih =>
    exact fun fields h => ih _ (nodup_names_insert writing.1 writing.2 h)

end Fields

end ConfigExpr
