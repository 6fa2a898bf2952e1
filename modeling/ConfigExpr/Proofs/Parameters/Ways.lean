import ConfigExpr.Proofs.Json.Parts
import ConfigExpr.Proofs.Parameters.Leaves
import ConfigExpr.Proofs.Text.Numerals

/-!
Ways down to the leaves of a container. A way is the list of field names and decimal indices that
lead to a scalar. Where field names are distinct, not empty and without points, a joined key has one
way at most, so a flat table holds each leaf under its own key and nothing else.
-/
namespace ConfigExpr

namespace Json

/-- The way from a document to a scalar in it. -/
inductive LeafAt (leaf : Json) : Json → List String → Prop where
  | here (scalar : leaf.isContainer = false) : LeafAt leaf leaf []
  | field {fields : List (String × Json)} {name : String} {part : Json} {way : List String}
      (held : (name, part) ∈ fields) (below : LeafAt leaf part way) :
      LeafAt leaf (.object fields) (name :: way)
  | item {items : List Json} {index : Nat} {part : Json} {way : List String}
      (held : items[index]? = some part) (below : LeafAt leaf part way) :
      LeafAt leaf (.array items) (FlatTable.indexName index :: way)

mutual

/-- The scalars of a document with the ways to them, in the order of the document. -/
def leaves : Json → List (List String × Json)
  | .object fields => fieldLeaves fields
  | .array items => itemLeaves 0 items
  | .null => [([], .null)]
  | .bool b => [([], .bool b)]
  | .number n => [([], .number n)]
  | .string s => [([], .string s)]

def fieldLeaves : List (String × Json) → List (List String × Json)
  | [] => []
  | (name, part) :: rest =>
    (leaves part).map (fun leaf => (name :: leaf.1, leaf.2)) ++ fieldLeaves rest

def itemLeaves (index : Nat) : List Json → List (List String × Json)
  | [] => []
  | part :: rest =>
    (leaves part).map (fun leaf => (FlatTable.indexName index :: leaf.1, leaf.2)) ++
      itemLeaves (index + 1) rest

end

theorem mem_map_cons {name : String} {leaf : Json} {way : List String}
    {leaves : List (List String × Json)} :
    (way, leaf) ∈ leaves.map (fun leaf => (name :: leaf.1, leaf.2)) ↔
      ∃ below, way = name :: below ∧ (below, leaf) ∈ leaves := by
  rw [List.mem_map]
  constructor
  · rintro ⟨⟨below, other⟩, member, same⟩
    obtain ⟨rfl, rfl⟩ := Prod.mk.inj same
    exact ⟨below, rfl, member⟩
  · rintro ⟨below, rfl, member⟩
    exact ⟨(below, leaf), member, rfl⟩

mutual

theorem mem_leaves_iff {leaf : Json} {way : List String} : ∀ document : Json,
    (way, leaf) ∈ leaves document ↔ LeafAt leaf document way
  | .null | .bool _ | .number _ | .string _ => by
    rw [leaves, List.mem_singleton, Prod.mk.injEq]
    constructor
    · rintro ⟨rfl, rfl⟩
      exact .here rfl
    · intro leads
      cases leads
      exact ⟨rfl, rfl⟩
  | .object fields => by
    rw [leaves, mem_fieldLeaves_iff fields]
    constructor
    · rintro ⟨name, part, below, held, rfl, leads⟩
      exact .field held leads
    · intro leads
      cases leads with
      | here scalar => cases scalar
      | field held leads => exact ⟨_, _, _, held, rfl, leads⟩
  | .array items => by
    rw [leaves, mem_itemLeaves_iff items]
    constructor
    · rintro ⟨index, part, below, held, rfl, leads⟩
      rw [Nat.zero_add]
      exact .item held leads
    · intro leads
      cases leads with
      | here scalar => cases scalar
      | @item _ index _ _ held leads =>
        exact ⟨index, _, _, held, by rw [Nat.zero_add], leads⟩

theorem mem_fieldLeaves_iff {leaf : Json} {way : List String} :
    ∀ fields : List (String × Json), (way, leaf) ∈ fieldLeaves fields ↔
      ∃ name part below, (name, part) ∈ fields ∧ way = name :: below ∧ LeafAt leaf part below
  | [] => by simp [fieldLeaves]
  | (name, part) :: rest => by
    rw [fieldLeaves, List.mem_append, mem_map_cons, mem_fieldLeaves_iff rest]
    constructor
    · rintro (⟨below, rfl, member⟩ | ⟨name', part', below, held, found⟩)
      · exact ⟨name, part, below, List.mem_cons_self, rfl, (mem_leaves_iff part).mp member⟩
      · exact ⟨name', part', below, List.mem_cons_of_mem _ held, found⟩
    · rintro ⟨name', part', below, held, rfl, leads⟩
      rcases List.mem_cons.mp held with here | held
      · obtain ⟨rfl, rfl⟩ := Prod.mk.inj here
        exact .inl ⟨below, rfl, (mem_leaves_iff part').mpr leads⟩
      · exact .inr ⟨name', part', below, held, rfl, leads⟩

theorem mem_itemLeaves_iff {leaf : Json} {way : List String} {start : Nat} :
    ∀ items : List Json, (way, leaf) ∈ itemLeaves start items ↔
      ∃ index part below, items[index]? = some part ∧
        way = FlatTable.indexName (start + index) :: below ∧ LeafAt leaf part below
  | [] => by simp [itemLeaves]
  | part :: rest => by
    rw [itemLeaves, List.mem_append, mem_map_cons, mem_itemLeaves_iff rest]
    constructor
    · rintro (⟨below, rfl, member⟩ | ⟨index, part', below, held, written, leads⟩)
      · exact ⟨0, part, below, rfl, rfl, (mem_leaves_iff part).mp member⟩
      · rw [Nat.add_right_comm] at written
        exact ⟨index + 1, part', below, held, written, leads⟩
    · rintro ⟨index, part', below, held, written, leads⟩
      cases index with
      | zero =>
        obtain rfl := Option.some.inj held
        exact .inl ⟨below, written, (mem_leaves_iff part).mpr leads⟩
      | succ index =>
        rw [← Nat.add_assoc, Nat.add_right_comm] at written
        exact .inr ⟨index, part', below, held, written, leads⟩

end

/-- A name that is found again in a joined key. -/
def IsComponent (name : String) : Prop :=
  name ≠ "" ∧ '.' ∉ name.toList

/-- No object has two fields of one name, as in every document that is read. -/
def HasDistinctNames : Json → Prop :=
  EveryObject List.Nodup

def HasComponentNames : Json → Prop :=
  EveryObject fun names => ∀ name ∈ names, IsComponent name

theorem isComponent_indexName (index : Nat) : IsComponent (FlatTable.indexName index) := by
  rw [IsComponent, FlatTable.indexName, String.toList_ofList]
  constructor
  · intro empty
    have digits := congrArg String.toList empty
    rw [String.toList_ofList] at digits
    exact Numeral.ofNat_ne_nil index digits
  · intro point
    exact absurd (Numeral.isAsciiDigit_of_mem_ofNat point) (by decide)

theorem indexName_injective {i j : Nat} (same : FlatTable.indexName i = FlatTable.indexName j) :
    i = j := by
  have digits := congrArg String.toList same
  rw [FlatTable.indexName, FlatTable.indexName, String.toList_ofList, String.toList_ofList] at digits
  exact Numeral.ofNat_injective digits

theorem LeafAt.isComponent {leaf document : Json} {way : List String}
    (leads : LeafAt leaf document way) (components : HasComponentNames document) :
    ∀ name ∈ way, IsComponent name := by
  induction leads with
  | here scalar => simp
  | field held below ih =>
    refine List.forall_mem_cons.mpr ⟨?_, ih (components.field held)⟩
    exact components _ .here _ (List.mem_map.mpr ⟨_, held, rfl⟩)
  | item held below ih =>
    refine List.forall_mem_cons.mpr ⟨isComponent_indexName _, ih (components.item ?_)⟩
    exact List.mem_of_getElem? held

theorem LeafAt.unique {leaf other document : Json} {way : List String}
    (first : LeafAt leaf document way) (second : LeafAt other document way)
    (distinct : HasDistinctNames document) : leaf = other := by
  induction first with
  | here scalar =>
    cases second with
    | here _ => rfl
  | field held below ih =>
    cases second with
    | field heldToo belowToo =>
      obtain rfl := Fields.eq_of_mem_of_nodup (distinct _ .here) held heldToo
      exact ih belowToo (distinct.field held)
  | @item items index part way held below ih =>
    generalize indexed : FlatTable.indexName index :: way = whole at second
    cases second with
    | here scalar => cases indexed
    | @item _ index' part' way' heldToo belowToo =>
      obtain ⟨index_eq, rfl⟩ := List.cons.inj indexed
      obtain rfl := indexName_injective index_eq
      obtain rfl := Option.some.inj (held.symm.trans heldToo)
      exact ih belowToo (distinct.item (List.mem_of_getElem? held))

end Json

namespace FlatTable
open Fields Json

/-- The key of a way. -/
def joined (way : List String) : String :=
  String.intercalate "." way

theorem foldl_childPath {path : String} (nonempty : path ≠ "") (way : List String) :
    way.foldl childPath path = joined (path :: way) := by
  induction way generalizing path with
  | nil => exact String.intercalate_singleton.symm
  | cons name rest ih =>
    have longer : path ++ "." ++ name ≠ "" := by
      simp [nonempty]
    rw [List.foldl_cons, childPath, if_neg nonempty, ih longer]
    simp only [joined, String.intercalate_cons_append, String.intercalate_cons_cons]

theorem foldl_childPath_root {way : List String} (components : ∀ name ∈ way, IsComponent name) :
    way.foldl childPath "" = joined way := by
  cases way with
  | nil => rfl
  | cons name rest =>
    rw [List.foldl_cons, childPath, if_pos rfl]
    exact foldl_childPath (components name List.mem_cons_self).1 rest

theorem joined_ne_empty {name : String} (component : IsComponent name) (rest : List String) :
    joined (name :: rest) ≠ "" := by
  cases rest with
  | nil => rw [joined, String.intercalate_singleton]; exact component.1
  | cons next rest => simp [joined, component.1]

theorem splitOn_joined {name : String} {rest : List String}
    (components : ∀ part ∈ name :: rest, IsComponent part) :
    (joined (name :: rest)).toList.splitOn '.' = (name :: rest).map String.toList := by
  rw [joined, String.toList_intercalate]
  refine List.splitOn_intercalate '.' ?_ (by simp)
  rw [List.forall_mem_map]
  exact fun part member => (components part member).2

theorem joined_injective {way other : List String} (components : ∀ name ∈ way, IsComponent name)
    (components' : ∀ name ∈ other, IsComponent name) (same : joined way = joined other) :
    way = other := by
  cases way with
  | nil =>
    cases other with
    | nil => rfl
    | cons name rest =>
      exact (joined_ne_empty (components' name List.mem_cons_self) rest same.symm).elim
  | cons name rest =>
    cases other with
    | nil => exact (joined_ne_empty (components name List.mem_cons_self) rest same).elim
    | cons name' rest' =>
      have parts := congrArg (fun key => key.toList.splitOn '.') same
      simp only [splitOn_joined components, splitOn_joined components'] at parts
      exact (List.map_inj_right fun _ _ => String.toList_inj.mp).mp parts

theorem foldl_childPath_empty (way : List String) :
    way.foldl childPath "" = joined (way.dropWhile (· == "")) := by
  induction way with
  | nil => rfl
  | cons name rest ih =>
    rw [List.foldl_cons, childPath, if_pos rfl, List.dropWhile_cons]
    by_cases empty : name = ""
    · rw [empty, ih]
      rfl
    · rw [foldl_childPath empty, if_neg (mt eq_of_beq empty)]

mutual

theorem leavesAt_eq_map (path : String) : ∀ document : Json,
    leavesAt path document =
      (leaves document).map fun leaf => (leaf.1.foldl childPath path, .ofJson leaf.2)
  | .null | .bool _ | .number _ | .string _ => rfl
  | .object fields => leavesOfFields_eq_map path fields
  | .array items => leavesOfItems_eq_map path 0 items

theorem leavesOfFields_eq_map (path : String) : ∀ fields : List (String × Json),
    leavesOfFields path fields =
      (fieldLeaves fields).map fun leaf => (leaf.1.foldl childPath path, .ofJson leaf.2)
  | [] => rfl
  | (name, part) :: rest => by
    rw [leavesOfFields, leavesAt_eq_map _ part, leavesOfFields_eq_map path rest, fieldLeaves,
      List.map_append, List.map_map]
    rfl

theorem leavesOfItems_eq_map (path : String) (start : Nat) : ∀ items : List Json,
    leavesOfItems path start items =
      (itemLeaves start items).map fun leaf => (leaf.1.foldl childPath path, .ofJson leaf.2)
  | [] => rfl
  | part :: rest => by
    rw [leavesOfItems, leavesAt_eq_map _ part, leavesOfItems_eq_map path _ rest, itemLeaves,
      List.map_append, List.map_map]
    rfl

end

theorem mem_leavesAt_iff {path key : String} {v : Value} {document : Json} :
    (key, v) ∈ leavesAt path document ↔ ∃ way leaf, LeafAt leaf document way ∧
      key = way.foldl childPath path ∧ v = .ofJson leaf := by
  rw [leavesAt_eq_map, List.mem_map]
  constructor
  · rintro ⟨⟨way, leaf⟩, member, same⟩
    obtain ⟨rfl, rfl⟩ := Prod.mk.inj same
    exact ⟨way, leaf, (mem_leaves_iff document).mp member, rfl, rfl⟩
  · rintro ⟨way, leaf, leads, rfl, rfl⟩
    exact ⟨(way, leaf), (mem_leaves_iff document).mpr leads, rfl⟩

theorem find?_flatten_eq_some {document : Json} (distinct : HasDistinctNames document)
    (components : HasComponentNames document) {key : String} {v : Value} :
    Fields.find? (flatten document) key = some v ↔
      ∃ way leaf, LeafAt leaf document way ∧ key = joined way ∧ v = .ofJson leaf := by
  have written : ∀ w, (key, w) ∈ leavesAt "" document ↔
      ∃ way leaf, LeafAt leaf document way ∧ key = joined way ∧ w = .ofJson leaf := by
    intro w
    rw [mem_leavesAt_iff]
    refine exists_congr fun way => exists_congr fun leaf => and_congr_right fun leads => ?_
    rw [foldl_childPath_root (leads.isComponent components)]
  rw [flatten, flattenInto_eq_insertAll, find?_insertAll_eq_some, written]
  intro v w first second
  obtain ⟨way, leaf, leads, rfl, rfl⟩ := (written v).mp first
  obtain ⟨way', leaf', leads', same, rfl⟩ := (written w).mp second
  obtain rfl := joined_injective (leads.isComponent components) (leads'.isComponent components) same
  rw [leads.unique leads' distinct]

end FlatTable

end ConfigExpr
