import ConfigExpr.Proofs.Expression.Weight

/-!
The depth guard is exact. Classification at a depth that is within the limit gives the expression
of the document if the levels of the document still fit, and else the error of the limit, whichever
container comes first.
-/
namespace ConfigExpr.Expression

/-- An outcome that takes a number of levels and has them only within the limit. -/
def within {α : Type} (maxDepth levels : Nat) (a : α) : Except EvalError α :=
  if levels ≤ maxDepth then .ok a else .error (.depthExceeded maxDepth)

section Within
variable {α β : Type} {maxDepth levels more : Nat}

theorem within_of_le {a : α} (fits : levels ≤ maxDepth) : within maxDepth levels a = .ok a :=
  if_pos fits

theorem within_of_lt {a : α} (exceeded : maxDepth < levels) :
    within maxDepth levels a = .error (.depthExceeded maxDepth) :=
  if_neg (Nat.not_le.mpr exceeded)

theorem eq_of_within_eq_ok {a b : α} (done : within maxDepth levels a = .ok b) : b = a := by
  unfold within at done
  split at done
  · exact (Except.ok.inj done).symm
  · cases done

theorem map_within (f : α → β) (a : α) :
    f <$> within maxDepth levels a = within maxDepth levels (f a) := by
  unfold within
  split <;> rfl

theorem within_bind (a : α) (next : α → β) :
    (within maxDepth levels a >>= fun a => within maxDepth more (next a)) =
      within maxDepth (max levels more) (next a) := by
  by_cases fits : levels ≤ maxDepth
  · rw [within_of_le fits]
    simp only [within, Nat.max_le, fits, true_and]
    rfl
  · have exceeded : maxDepth < levels := Nat.not_le.mp fits
    rw [within_of_lt exceeded, within_of_lt (by omega)]
    rfl

theorem checkDepth_bind {isSpace : String → Bool} {depth : Nat} {next : Except EvalError α} {a : α}
    (step : depth + 1 ≤ maxDepth → next = within maxDepth (depth + 1 + levels) a) :
    (checkDepth ⟨isSpace, maxDepth⟩ depth >>= fun _ => next) =
      within maxDepth (depth + (1 + levels)) a := by
  by_cases full : maxDepth ≤ depth
  · simp only [checkDepth, if_pos full]
    exact (within_of_lt (by omega)).symm
  · simp only [checkDepth, if_neg full, ← Nat.add_assoc]
    exact step (by omega)

end Within

variable (isSpace : String → Bool) (maxDepth : Nat)

mutual

theorem classifyAt_eq_within {depth : Nat} (room : depth ≤ maxDepth) : ∀ document : Json,
    classifyAt ⟨isSpace, maxDepth⟩ depth document =
      within maxDepth (depth + document.weight isSpace) (ofJson isSpace document)
  | .null | .bool _ | .number _ | .string _ => (within_of_le room).symm
  | .array items => by
    rw [classifyAt, Json.weight, ofJson]
    refine checkDepth_bind fun room => ?_
    rw [classifyItems_eq_within room items, bind_pure_comp, map_within]
  | .object fields => by
    rw [classifyAt, Json.weight, ofJson]
    cases Fields.find? fields functionField with
    | some name =>
      exact checkDepth_bind fun room => classifyCall_eq_within room (callName name) fields
    | none =>
      cases read : reference? isSpace fields with
      | some found =>
        simp only [(isReference_of_reference?_eq_some read).1, if_true]
        change _ = within maxDepth (depth + (1 + 0)) found
        exact checkDepth_bind fun room => (within_of_le room).symm
      | none =>
        simp only [isReference_of_reference?_eq_none read, Bool.false_eq_true, if_false]
        refine checkDepth_bind fun room => ?_
        rw [classifyFields_eq_within room fields, bind_pure_comp, map_within]

theorem classifyItems_eq_within {depth : Nat} (room : depth ≤ maxDepth) : ∀ items : List Json,
    classifyItems ⟨isSpace, maxDepth⟩ depth items =
      within maxDepth (depth + Json.itemsWeight isSpace items) (ofJsonItems isSpace items)
  | [] => (within_of_le room).symm
  | item :: rest => by
    rw [classifyItems, classifyAt_eq_within room item, classifyItems_eq_within room rest]
    simp only [bind_pure_comp, map_within, within_bind, Json.itemsWeight, ofJsonItems,
      Nat.add_max_add_left]

theorem classifyFields_eq_within {depth : Nat} (room : depth ≤ maxDepth) :
    ∀ fields : List (String × Json), classifyFields ⟨isSpace, maxDepth⟩ depth fields =
      within maxDepth (depth + Json.fieldsWeight isSpace fields) (ofJsonFields isSpace fields)
  | [] => (within_of_le room).symm
  | (name, item) :: rest => by
    rw [classifyFields, classifyAt_eq_within room item, classifyFields_eq_within room rest]
    simp only [bind_pure_comp, map_within, within_bind, Json.fieldsWeight, ofJsonFields,
      Nat.add_max_add_left]

theorem classifyCall_eq_within {depth : Nat} (room : depth ≤ maxDepth) (name : CallName) :
    ∀ fields : List (String × Json), classifyCall ⟨isSpace, maxDepth⟩ depth name fields =
      within maxDepth (depth + Json.callWeight isSpace fields) (callOfFields isSpace name fields)
  | [] => (within_of_le room).symm
  | (key, item) :: rest => by
    rw [classifyCall, Json.callWeight, callOfFields]
    split
    · exact classifyArguments_eq_within room name item
    · exact classifyCall_eq_within room name rest

theorem classifyArguments_eq_within {depth : Nat} (room : depth ≤ maxDepth) (name : CallName) :
    ∀ args : Json, classifyArguments ⟨isSpace, maxDepth⟩ depth name args =
      within maxDepth (depth + Json.argumentsWeight isSpace args) (callOfArguments isSpace name args)
  | .null | .bool _ | .number _ | .string _ => (within_of_le room).symm
  | .array items => by
    rw [classifyArguments, Json.argumentsWeight, callOfArguments]
    refine checkDepth_bind fun room => ?_
    rw [classifyItems_eq_within room items, bind_pure_comp, map_within]
  | .object fields => by
    rw [classifyArguments, Json.argumentsWeight, callOfArguments]
    refine checkDepth_bind fun room => ?_
    rw [classifyFields_eq_within room fields, bind_pure_comp, map_within]

end

theorem classify_eq_within (document : Json) :
    classify ⟨isSpace, maxDepth⟩ document =
      within maxDepth (document.weight isSpace) (ofJson isSpace document) := by
  rw [classify, classifyAt_eq_within isSpace maxDepth (Nat.zero_le maxDepth), Nat.zero_add]

theorem eq_ofJson_of_classifyAt {shape : Shape} {depth : Nat} {document : Json} {x : Expression}
    (found : classifyAt shape depth document = .ok x) : x = ofJson shape.isSpace document := by
  by_cases room : depth ≤ shape.maxDepth
  · exact eq_of_within_eq_ok
      ((classifyAt_eq_within shape.isSpace shape.maxDepth room document).symm.trans found)
  -- Past the limit only a scalar is classified.
  · have full : shape.maxDepth ≤ depth := Nat.le_of_lt (Nat.not_le.mp room)
    cases document with
    | array items =>
      rw [classifyAt, checkDepth, if_pos full] at found
      cases found
    | object fields =>
      rw [classifyAt, checkDepth, if_pos full] at found
      cases found
    | null | bool _ | number _ | string _ => exact (Except.ok.inj found).symm

theorem nesting_call_le (name : CallName) (args : List Expression) :
    (call name args).nesting ≤ 2 + itemsNesting args := by
  cases args with
  | nil => simp only [nesting, itemsNesting]; omega
  | cons arg args => simp only [nesting, itemsNesting]; omega

theorem itemsNesting_map_snd (fields : List (String × Expression)) :
    itemsNesting (fields.map Prod.snd) = fieldsNesting fields := by
  induction fields with
  | nil => rfl
  | cons field rest ih => simp only [List.map_cons, itemsNesting, fieldsNesting, ih]

mutual

theorem nesting_ofJson_le : ∀ document : Json,
    (ofJson isSpace document).nesting ≤ document.weight isSpace
  | .null | .bool _ | .number _ | .string _ => Nat.le_refl 0
  | .array items => Nat.add_le_add_left (itemsNesting_ofJsonItems_le items) 1
  | .object fields => by
    rw [ofJson, Json.weight]
    cases Fields.find? fields functionField with
    | some name => exact nesting_callOfFields_le (callName name) fields
    | none =>
      cases read : reference? isSpace fields with
      | some found =>
        obtain ⟨known, single⟩ := isReference_of_reference?_eq_some read
        simp only [known, single, if_true, Nat.le_refl]
      | none =>
        simp only [isReference_of_reference?_eq_none read, Bool.false_eq_true, if_false]
        exact Nat.add_le_add_left (fieldsNesting_ofJsonFields_le fields) 1

theorem itemsNesting_ofJsonItems_le : ∀ items : List Json,
    itemsNesting (ofJsonItems isSpace items) ≤ Json.itemsWeight isSpace items
  | [] => Nat.le_refl 0
  | item :: rest => by
    have first := nesting_ofJson_le item
    have others := itemsNesting_ofJsonItems_le rest
    simp only [ofJsonItems, itemsNesting, Json.itemsWeight]
    omega

theorem fieldsNesting_ofJsonFields_le : ∀ fields : List (String × Json),
    fieldsNesting (ofJsonFields isSpace fields) ≤ Json.fieldsWeight isSpace fields
  | [] => Nat.le_refl 0
  | (name, item) :: rest => by
    have first := nesting_ofJson_le item
    have others := fieldsNesting_ofJsonFields_le rest
    simp only [ofJsonFields, fieldsNesting, Json.fieldsWeight]
    omega

theorem nesting_callOfFields_le (name : CallName) : ∀ fields : List (String × Json),
    (callOfFields isSpace name fields).nesting ≤ 1 + Json.callWeight isSpace fields
  | [] => Nat.le_refl 1
  | (key, item) :: rest => by
    rw [callOfFields, Json.callWeight]
    split
    · exact nesting_callOfArguments_le name item
    · exact nesting_callOfFields_le name rest

theorem nesting_callOfArguments_le (name : CallName) : ∀ args : Json,
    (callOfArguments isSpace name args).nesting ≤ 1 + Json.argumentsWeight isSpace args
  | .null | .bool _ | .number _ | .string _ => Nat.le_refl 1
  | .array items => by
    have call := nesting_call_le name (ofJsonItems isSpace items)
    have below := itemsNesting_ofJsonItems_le items
    simp only [callOfArguments, Json.argumentsWeight]
    omega
  | .object fields => by
    have call := nesting_call_le name ((ofJsonFields isSpace fields).map Prod.snd)
    have below := fieldsNesting_ofJsonFields_le fields
    rw [itemsNesting_map_snd] at call
    simp only [callOfArguments, Json.argumentsWeight]
    omega

end

end ConfigExpr.Expression
