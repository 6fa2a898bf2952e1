import ConfigExpr.Fields
import ConfigExpr.Json.Basic

/-!
Parts of a document. A part occurs in a document if a way down through fields and items leads to it;
a property of all objects in a document passes to its fields and items.
-/
namespace ConfigExpr.Json

inductive Occurs (part : Json) : Json → Prop where
  | here : Occurs part part
  | field {fields : List (String × Json)} {field : String × Json} (held : field ∈ fields)
      (inside : Occurs part field.2) : Occurs part (.object fields)
  | item {items : List Json} {item : Json} (held : item ∈ items) (inside : Occurs part item) :
      Occurs part (.array items)

/-- A property of the field names of every object in a document. -/
def EveryObject (p : List String → Prop) (document : Json) : Prop :=
  ∀ fields, (Json.object fields).Occurs document → p (Fields.names fields)

theorem EveryObject.field {p : List String → Prop} {fields : List (String × Json)} {name : String}
    {part : Json} (whole : EveryObject p (.object fields)) (held : (name, part) ∈ fields) :
    EveryObject p part :=
  fun below occurs => whole below (.field held occurs)

theorem EveryObject.item {p : List String → Prop} {items : List Json} {part : Json}
    (whole : EveryObject p (.array items)) (held : part ∈ items) : EveryObject p part :=
  fun below occurs => whole below (.item held occurs)

theorem everyObject_object {p : List String → Prop} {fields : List (String × Json)} :
    EveryObject p (.object fields) ↔
      p (Fields.names fields) ∧ ∀ field ∈ fields, EveryObject p field.2 := by
  refine ⟨fun whole => ⟨whole _ .here, fun field held => whole.field held⟩, fun parts => ?_⟩
  intro below occurs
  cases occurs with
  | here => exact parts.1
  | field held inside => exact parts.2 _ held below inside

theorem everyObject_array {p : List String → Prop} {items : List Json} :
    EveryObject p (.array items) ↔ ∀ item ∈ items, EveryObject p item := by
  refine ⟨fun whole item held => whole.item held, fun parts => ?_⟩
  intro below occurs
  cases occurs with
  | item held inside => exact parts _ held below inside

theorem everyObject_of_scalar {p : List String → Prop} {document : Json}
    (scalar : document.isContainer = false) : EveryObject p document := by
  intro below occurs
  cases occurs <;> cases scalar

/-- A property of every integer in a document. -/
def EveryInteger (p : Int → Prop) (document : Json) : Prop :=
  ∀ n, (Json.integer n).Occurs document → p n

theorem everyInteger_object {p : Int → Prop} {fields : List (String × Json)} :
    EveryInteger p (.object fields) ↔ ∀ field ∈ fields, EveryInteger p field.2 := by
  refine ⟨fun whole field held n inside => whole n (.field held inside), fun parts n inside => ?_⟩
  cases inside with
  | field held inside => exact parts _ held n inside

theorem everyInteger_array {p : Int → Prop} {items : List Json} :
    EveryInteger p (.array items) ↔ ∀ item ∈ items, EveryInteger p item := by
  refine ⟨fun whole item held n inside => whole n (.item held inside), fun parts n inside => ?_⟩
  cases inside with
  | item held inside => exact parts _ held n inside

theorem everyInteger_integer {p : Int → Prop} {n : Int} : EveryInteger p (.integer n) ↔ p n := by
  refine ⟨fun whole => whole n .here, fun holds m inside => ?_⟩
  cases inside with
  | here => exact holds

/-- Every integer in a document is one of 64 bits. -/
def IntegersFit (document : Json) : Prop :=
  ∀ n, (Json.integer n).Occurs document → -2 ^ 63 ≤ n ∧ n < 2 ^ 63

theorem integersFit_object {fields : List (String × Json)} :
    IntegersFit (.object fields) ↔ ∀ field ∈ fields, IntegersFit field.2 :=
  everyInteger_object

theorem integersFit_array {items : List Json} :
    IntegersFit (.array items) ↔ ∀ item ∈ items, IntegersFit item :=
  everyInteger_array

theorem integersFit_integer {n : Int} : IntegersFit (.integer n) ↔ -2 ^ 63 ≤ n ∧ n < 2 ^ 63 :=
  everyInteger_integer (p := fun n => -2 ^ 63 ≤ n ∧ n < 2 ^ 63)

/-- Every integer in a document is one of 64 bits with or without a sign. No document that is read
holds another. -/
def IntegersAreWords : Json → Prop :=
  EveryInteger fun n => -2 ^ 63 ≤ n ∧ n < 2 ^ 64

end ConfigExpr.Json
