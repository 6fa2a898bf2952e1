import ConfigExpr.Fields

/-!
Reading fields after writing them: a name is found if it was written, writing a name changes what is
found under that name alone, and nothing is held that was not written.
-/
namespace ConfigExpr.Fields
variable {α : Type}

theorem find?_cons (key name : String) (content : α) (rest : Fields α) :
    find? ((key, content) :: rest) name = if name = key then some content else find? rest name := by
  by_cases same : name = key
  · simp [find?, same]
  · have other : (name == key) = false := by simpa using same
    simp only [find?, List.lookup_cons, other, if_neg same]

theorem find?_eq_none {fields : Fields α} {name : String} :
    find? fields name = none ↔ name ∉ fields.names := by
  induction fields with
  | nil => simp [find?, names]
  | cons field rest ih =>
    rw [find?_cons]
    by_cases same : name = field.1
    · simp [names, same]
    · rw [if_neg same, ih]
      simp only [names, List.map_cons, List.mem_cons, same, false_or]

theorem find?_insert (fields : Fields α) (name other : String) (content : α) :
    find? (insert fields name content) other =
      if other = name then some content else find? fields other := by
  induction fields with
  | nil => rw [insert, find?_cons]
  | cons field rest ih =>
    obtain ⟨key, old⟩ := field
    rw [insert]
    split
    next same =>
      subst same
      simp only [find?_cons]
      split <;> rfl
    next different =>
      simp only [find?_cons, ih]
      by_cases first : other = key
      · have rest : other ≠ name := fun h => different (first.symm.trans h)
        simp [first, different]
      · simp [first]

theorem mem_of_mem_insert {fields : Fields α} {name : String} {content : α}
    {entry : String × α} (member : entry ∈ insert fields name content) :
    entry ∈ fields ∨ entry = (name, content) := by
  induction fields with
  | nil => exact .inr (List.mem_singleton.mp member)
  | cons field rest ih =>
    obtain ⟨key, old⟩ := field
    rw [insert] at member
    split at member
    next same =>
      rcases List.mem_cons.mp member with head | tail
      · exact .inr (same ▸ head)
      · exact .inl (List.mem_cons_of_mem _ tail)
    next =>
      rcases List.mem_cons.mp member with head | tail
      · exact .inl (head ▸ List.mem_cons_self)
      · exact (ih tail).imp_left (List.mem_cons_of_mem _)

theorem eq_of_mem_of_nodup {fields : Fields α} {name : String} {a b : α}
    (distinct : fields.names.Nodup) (first : (name, a) ∈ fields)
    (second : (name, b) ∈ fields) : a = b := by
  induction fields with
  | nil => cases first
  | cons field rest ih =>
    obtain ⟨fresh, distinct⟩ := List.nodup_cons.mp distinct
    have elsewhere {content : α} (later : (name, content) ∈ rest) : name ≠ field.1 := fun same =>
      fresh (same ▸ List.mem_map.mpr ⟨_, later, rfl⟩)
    rcases List.mem_cons.mp first with rfl | first <;>
      rcases List.mem_cons.mp second with head | second
    · exact (Prod.mk.inj head).2.symm
    · exact (elsewhere second rfl).elim
    · exact (elsewhere first (congrArg Prod.fst head)).elim
    · exact ih distinct first second

/-- The fields after a list of writings, applied from left to right. -/
def insertAll (fields : Fields α) (writings : List (String × α)) : Fields α :=
  writings.foldl (fun fields writing => insert fields writing.1 writing.2) fields

theorem insertAll_cons (fields : Fields α) (writing : String × α)
    (rest : List (String × α)) :
    insertAll fields (writing :: rest) = insertAll (insert fields writing.1 writing.2) rest := rfl

theorem insertAll_append (fields : Fields α) (first second : List (String × α)) :
    insertAll fields (first ++ second) = insertAll (insertAll fields first) second :=
  List.foldl_append

theorem mem_of_mem_insertAll {writings : List (String × α)} {fields : Fields α}
    {entry : String × α} (member : entry ∈ insertAll fields writings) :
    entry ∈ fields ∨ entry ∈ writings := by
  induction writings generalizing fields with
  | nil => exact .inl member
  | cons writing rest ih =>
    rcases ih member with before | later
    · exact (mem_of_mem_insert before).imp_right (by rintro rfl; exact List.mem_cons_self)
    · exact .inr (List.mem_cons_of_mem writing later)

theorem mem_of_find?_eq_some {fields : Fields α} {name : String} {content : α}
    (found : find? fields name = some content) : (name, content) ∈ fields := by
  induction fields with
  | nil => cases found
  | cons field rest ih =>
    rw [find?_cons] at found
    split at found
    next same =>
      obtain rfl := Option.some.inj found
      exact same ▸ List.mem_cons_self
    next => exact List.mem_cons_of_mem _ (ih found)

theorem mem_names_insertAll {writings : List (String × α)} {fields : Fields α} {name : String} :
    name ∈ (insertAll fields writings).names ↔ name ∈ fields.names ∨ name ∈ names writings := by
  induction writings generalizing fields with
  | nil => simp [insertAll, names]
  | cons writing rest ih =>
    have step : name ∈ (insert fields writing.1 writing.2).names ↔
        name ∈ fields.names ∨ name = writing.1 := by
      rw [names_insert]
      split
      next seen => exact ⟨.inl, fun h => h.elim id fun same => same ▸ seen⟩
      next => simp
    have written : name ∈ names (writing :: rest) ↔ name = writing.1 ∨ name ∈ names rest :=
      List.mem_cons
    rw [insertAll_cons, ih, step, written, or_assoc]

theorem find?_insertAll_eq_some {writings : List (String × α)} {name : String} {content : α}
    (agree : ∀ a b, (name, a) ∈ writings → (name, b) ∈ writings → a = b) :
    find? (insertAll [] writings) name = some content ↔ (name, content) ∈ writings := by
  have written {a : α} (found : find? (insertAll [] writings) name = some a) :
      (name, a) ∈ writings :=
    (mem_of_mem_insertAll (mem_of_find?_eq_some found)).resolve_left List.not_mem_nil
  refine ⟨written, fun member => ?_⟩
  cases found : find? (insertAll [] writings) name with
  | none =>
    refine absurd ?_ (find?_eq_none.mp found)
    exact mem_names_insertAll.mpr (.inr (List.mem_map.mpr ⟨_, member, rfl⟩))
  | some other => rw [agree other content (written found) member]

theorem mem_of_mem_ofList {writings : List (String × α)} {entry : String × α}
    (member : entry ∈ ofList writings) : entry ∈ writings :=
  (mem_of_mem_insertAll member).resolve_left (List.not_mem_nil (a := entry))

theorem mem_names_ofList {writings : List (String × α)} {name : String} :
    name ∈ (ofList writings).names ↔ name ∈ names writings :=
  mem_names_insertAll.trans ⟨fun h => h.resolve_left (List.not_mem_nil (a := name)), .inr⟩

theorem insert_of_not_mem {fields : Fields α} {name : String} {content : α}
    (fresh : name ∉ fields.names) : insert fields name content = fields ++ [(name, content)] := by
  induction fields with
  | nil => rfl
  | cons field rest ih =>
    rw [names, List.map_cons, List.mem_cons, not_or] at fresh
    rw [insert, if_neg (Ne.symm fresh.1), ih fresh.2, List.cons_append]

theorem insertAll_of_nodup {writings : List (String × α)} {fields : Fields α}
    (distinct : (names (fields ++ writings)).Nodup) :
    insertAll fields writings = fields ++ writings := by
  induction writings generalizing fields with
  | nil => exact (List.append_nil fields).symm
  | cons writing rest ih =>
    have fresh : writing.1 ∉ fields.names := by
      rw [names, List.map_append, List.nodup_append] at distinct
      exact fun held => distinct.2.2 _ held _ List.mem_cons_self rfl
    rw [List.append_cons] at distinct ⊢
    rw [insertAll_cons, insert_of_not_mem fresh, ih distinct]

theorem ofList_of_nodup {writings : List (String × α)} (distinct : (names writings).Nodup) :
    ofList writings = writings :=
  insertAll_of_nodup distinct

end ConfigExpr.Fields
