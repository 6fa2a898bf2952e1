import ConfigExpr.Expression.Classify

/-!
How deep a document nests, as classification counts it. Without a limit every document stands for one
expression, and its weight is the number of levels on the longest way down that is followed:
references end the way, and a list of arguments is a level below its call.
-/
namespace ConfigExpr

namespace Expression

mutual

/-- The expression that a document stands for when nothing limits its depth. -/
def ofJson (isSpace : String → Bool) : Json → Expression
  | .array items => .sequence (ofJsonItems isSpace items)
  | .object fields =>
    match Fields.find? fields functionField with
    | some name => callOfFields isSpace (callName name) fields
    | none =>
      match reference? isSpace fields with
      | some found => found
      | none => .object (ofJsonFields isSpace fields)
  | .null => .scalar .null
  | .bool b => .scalar (.bool b)
  | .number n => .scalar (.ofNumber n)
  | .string s => .scalar (.string s)

def ofJsonItems (isSpace : String → Bool) : List Json → List Expression
  | [] => []
  | item :: rest => ofJson isSpace item :: ofJsonItems isSpace rest

def ofJsonFields (isSpace : String → Bool) : List (String × Json) → List (String × Expression)
  | [] => []
  | (name, item) :: rest => (name, ofJson isSpace item) :: ofJsonFields isSpace rest

/-- The call whose arguments are in the first arguments field. -/
def callOfFields (isSpace : String → Bool) (name : CallName) : List (String × Json) → Expression
  | [] => .call name []
  | (key, item) :: rest =>
    if key = argumentsField then callOfArguments isSpace name item
    else callOfFields isSpace name rest

def callOfArguments (isSpace : String → Bool) (name : CallName) : Json → Expression
  | .null => .call name []
  | .array items => .call name (ofJsonItems isSpace items)
  | .object fields => .call name ((ofJsonFields isSpace fields).map Prod.snd)
  | .bool _ | .number _ | .string _ => .callWithoutList name

end

mutual

/-- The containers that an expression nests, where the arguments of a call form one of their own. -/
def nesting : Expression → Nat
  | .scalar _ => 0
  | .sequence items => 1 + itemsNesting items
  | .object fields => 1 + fieldsNesting fields
  | .reference _ _ | .callWithoutList _ | .call _ [] => 1
  | .call _ (arg :: args) => 2 + max (nesting arg) (itemsNesting args)

def itemsNesting : List Expression → Nat
  | [] => 0
  | item :: rest => max (nesting item) (itemsNesting rest)

def fieldsNesting : List (String × Expression) → Nat
  | [] => 0
  | (_, item) :: rest => max (nesting item) (fieldsNesting rest)

end

end Expression

namespace Json
open Expression

/-- A single field that names a known space. -/
def isReference (isSpace : String → Bool) : List (String × Json) → Bool
  | [(space, _)] => isSpace space
  | _ => false

mutual

/-- The levels that classification descends in a document. -/
def weight (isSpace : String → Bool) : Json → Nat
  | .array items => 1 + itemsWeight isSpace items
  | .object fields =>
    match Fields.find? fields functionField with
    | some _ => 1 + callWeight isSpace fields
    | none => if isReference isSpace fields then 1 else 1 + fieldsWeight isSpace fields
  | .null | .bool _ | .number _ | .string _ => 0

def itemsWeight (isSpace : String → Bool) : List Json → Nat
  | [] => 0
  | item :: rest => max (weight isSpace item) (itemsWeight isSpace rest)

def fieldsWeight (isSpace : String → Bool) : List (String × Json) → Nat
  | [] => 0
  | (_, item) :: rest => max (weight isSpace item) (fieldsWeight isSpace rest)

/-- The levels below a call, which are those of its first arguments field. -/
def callWeight (isSpace : String → Bool) : List (String × Json) → Nat
  | [] => 0
  | (key, item) :: rest =>
    if key = argumentsField then argumentsWeight isSpace item else callWeight isSpace rest

def argumentsWeight (isSpace : String → Bool) : Json → Nat
  | .array items => 1 + itemsWeight isSpace items
  | .object fields => 1 + fieldsWeight isSpace fields
  | .null | .bool _ | .number _ | .string _ => 0

end

end Json

namespace Expression
variable {isSpace : String → Bool} {fields : List (String × Json)}

theorem isReference_of_reference?_eq_some {found : Expression}
    (read : reference? isSpace fields = some found) :
    Json.isReference isSpace fields = true ∧ found.nesting = 1 := by
  unfold reference? at read
  split at read
  · split at read
    next known => exact ⟨known, Option.some.inj read ▸ rfl⟩
    next => cases read
  · cases read

theorem isReference_of_reference?_eq_none (read : reference? isSpace fields = none) :
    Json.isReference isSpace fields = false := by
  unfold reference? at read
  split at read
  · split at read
    next => cases read
    next unknown => exact Bool.eq_false_iff.mpr unknown
  next many => unfold Json.isReference; split <;> simp_all

end Expression

end ConfigExpr
