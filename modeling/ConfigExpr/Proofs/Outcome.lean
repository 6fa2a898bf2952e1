/-!
Outcomes in sequence: a computation that ends in an error or passes a value to the next one. A chain
succeeds if every part of it does, and its error is the error of the first part that has one. Chains
of which each part is the same unless it fails in an excused way are the same unless the chain does.
A partial function takes a list as a whole if it takes each of its members.
-/
namespace ConfigExpr.Outcome

variable {ε α β : Type}

instance decidableEq [DecidableEq ε] [DecidableEq α] : DecidableEq (Except ε α)
  | .ok a, .ok b => decidable_of_iff (a = b) ⟨congrArg Except.ok, Except.ok.inj⟩
  | .error e, .error f => decidable_of_iff (e = f) ⟨congrArg Except.error, Except.error.inj⟩
  | .ok _, .error _ => .isFalse (by simp)
  | .error _, .ok _ => .isFalse (by simp)

@[simp] theorem pure_eq_ok (a : α) : (pure a : Except ε α) = .ok a := rfl

theorem ok_bind (a : α) (next : α → Except ε β) : (Except.ok a >>= next) = next a := rfl

theorem bind_eq_ok {x : Except ε α} {next : α → Except ε β} {b : β} :
    (x >>= next) = .ok b ↔ ∃ a, x = .ok a ∧ next a = .ok b := by
  cases x <;> simp [bind, Except.bind]

theorem bind_eq_error {x : Except ε α} {next : α → Except ε β} {fault : ε} :
    (x >>= next) = .error fault ↔
      x = .error fault ∨ ∃ a, x = .ok a ∧ next a = .error fault := by
  cases x <;> simp [bind, Except.bind]

theorem map_eq_ok {x : Except ε α} {f : α → β} {b : β} :
    f <$> x = .ok b ↔ ∃ a, x = .ok a ∧ f a = b := by
  cases x <;> simp [Functor.map, Except.map]

theorem map_eq_error {x : Except ε α} {f : α → β} {fault : ε} :
    f <$> x = .error fault ↔ x = .error fault := by
  cases x <;> simp [Functor.map, Except.map]

theorem eq_ok_or_eq_error (x : Except ε α) : (∃ a, x = .ok a) ∨ ∃ fault, x = .error fault := by
  cases x <;> simp

theorem exists_of_mapM_eq_error {f : α → Except ε β} {list : List α} {fault : ε}
    (failed : list.mapM f = .error fault) : ∃ a ∈ list, f a = .error fault := by
  induction list with
  | nil => cases failed
  | cons a list ih =>
    rw [List.mapM_cons, bind_eq_error] at failed
    rcases failed with first | ⟨b, -, failed⟩
    · exact ⟨a, List.mem_cons_self, first⟩
    · rcases bind_eq_error.mp failed with later | ⟨found, -, done⟩
      · obtain ⟨other, member, failed⟩ := ih later
        exact ⟨other, List.mem_cons_of_mem a member, failed⟩
      · cases done

theorem mapM_eq_some {f : α → Option β} {list : List α} {found : List β} :
    list.mapM f = some found ↔ list.map f = found.map some := by
  induction list generalizing found with
  | nil => cases found <;> simp
  | cons a list ih =>
    rw [List.mapM_cons, List.map_cons]
    cases f a with
    | none => cases found <;> simp
    | some b =>
      cases found with
      | nil => cases list.mapM f <;> simp
      | cons c found =>
        rw [List.map_cons, List.cons.injEq, ← ih]
        cases list.mapM f <;> simp

/-- The second outcome is the first, unless the first is one of the excused errors. -/
def SameUnless (excused : ε → Prop) (first second : Except ε α) : Prop :=
  second = first ∨ ∃ fault, excused fault ∧ first = .error fault

namespace SameUnless
variable {excused : ε → Prop} {x y : Except ε α}

theorem of_eq (same : x = y) : SameUnless excused x y :=
  .inl same.symm

theorem bind {next next' : α → Except ε β} (first : SameUnless excused x y)
    (rest : ∀ a, x = .ok a → SameUnless excused (next a) (next' a)) :
    SameUnless excused (x >>= next) (y >>= next') := by
  rcases first with rfl | ⟨fault, allowed, rfl⟩
  · cases y with
    | error fault => exact .inl rfl
    | ok a => exact rest a rfl
  · exact .inr ⟨fault, allowed, rfl⟩

theorem map (f : α → β) (first : SameUnless excused x y) :
    SameUnless excused (f <$> x) (f <$> y) := by
  rcases first with rfl | ⟨fault, allowed, rfl⟩
  · exact .inl rfl
  · exact .inr ⟨fault, allowed, rfl⟩

theorem eq (first : SameUnless excused x y) (unexcused : ∀ fault, excused fault → x ≠ .error fault) :
    x = y := by
  rcases first with same | ⟨fault, allowed, failed⟩
  · exact same.symm
  · exact (unexcused fault allowed failed).elim

theorem eq_of_false (first : SameUnless (fun _ => False) x y) : x = y :=
  first.eq fun _ impossible => impossible.elim

end SameUnless

end ConfigExpr.Outcome
