import ConfigExpr.Value.Basic

/-!
Classified expressions. Malformed calls and references stay in the tree, so that they are reported
when evaluation reaches them.
-/
namespace ConfigExpr

inductive CallName where
  | named (name : String)
  | invalid (json : String)
deriving DecidableEq, Repr

inductive ReferenceKey where
  | key (key : String)
  | invalid (json : String)
deriving DecidableEq, Repr

inductive Expression where
  | scalar (v : Value)
  | sequence (items : List Expression)
  | object (fields : List (String × Expression))
  | reference (space : String) (key : ReferenceKey)
  | call (name : CallName) (args : List Expression)
  /-- A call whose arguments are no list. -/
  | callWithoutList (name : CallName)

instance : Inhabited Expression := ⟨.scalar .null⟩

end ConfigExpr
