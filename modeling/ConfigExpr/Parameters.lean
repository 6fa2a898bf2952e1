import ConfigExpr.Evaluator.Error
import ConfigExpr.Value.Basic

/-!
Parameter tables. Each space holds one flat table: a scalar inside nested containers is found under
the names and indices on the way to it, joined with points. Containers without content leave no
entry, and of two entries with one key the later gives the value and the earlier the place.
-/
namespace ConfigExpr

/-- The values of one space under their joined keys. -/
abbrev FlatTable := Fields Value

namespace FlatTable

/-- The key of a child; the root has the empty path. -/
def childPath (path name : String) : String :=
  if path = "" then name else path ++ "." ++ name

def indexName (index : Nat) : String :=
  String.ofList (Numeral.ofNat index)

mutual

/-- Adds the scalars of a document under a path. -/
def flattenInto (table : FlatTable) (path : String) : Json → FlatTable
  | .object fields => flattenFields table path fields
  | .array items => flattenItems table path 0 items
  | .null => Fields.insert table path .null
  | .bool b => Fields.insert table path (.bool b)
  | .number n => Fields.insert table path (.ofNumber n)
  | .string s => Fields.insert table path (.string s)

def flattenFields (table : FlatTable) (path : String) : List (String × Json) → FlatTable
  | [] => table
  | (name, item) :: rest =>
    flattenFields (flattenInto table (childPath path name) item) path rest

def flattenItems (table : FlatTable) (path : String) (index : Nat) : List Json → FlatTable
  | [] => table
  | item :: rest =>
    flattenItems (flattenInto table (childPath path (indexName index)) item) path (index + 1) rest

end

def flatten (document : Json) : FlatTable :=
  flattenInto [] "" document

end FlatTable

structure Parameters where
  tables : Fields FlatTable

namespace Parameters

def empty : Parameters :=
  ⟨[]⟩

def insertTable (params : Parameters) (space : String) (table : FlatTable) : Parameters :=
  ⟨Fields.insert params.tables space table⟩

/-- Sets one value; a space that is new starts with an empty table. -/
def insert (params : Parameters) (space key : String) (v : Value) : Parameters :=
  let table := (Fields.find? params.tables space).getD []
  params.insertTable space (Fields.insert table key v)

/-- Adds the table of each space, or names the first that is no container. -/
def addTables (params : Parameters) : List (String × Json) → Except EvalError Parameters
  | [] => .ok params
  | (space, table) :: rest =>
    if table.isContainer then
      addTables (params.insertTable space (FlatTable.flatten table)) rest
    else .error (.malformedParameters space)

/-- The tables of a document of spaces; null stands for no spaces. -/
def ofJson : Json → Except EvalError Parameters
  | .null => .ok empty
  | .object spaces => empty.addTables spaces
  | _ => .error (.malformedParameters "")

def spaces (params : Parameters) : List String :=
  params.tables.names

def hasSpace (params : Parameters) (space : String) : Bool :=
  (Fields.find? params.tables space).isSome

/-- The value under a key; null counts as missing. -/
def get? (params : Parameters) (space key : String) : Option Value :=
  match Fields.find? params.tables space with
  | none => none
  | some table =>
    match Fields.find? table key with
    | some v => if v.isNull then none else some v
    | none => none

end Parameters

end ConfigExpr
