import AnnotatedSql.Schema.Basic
import Mathlib.Data.List.Pairwise

/-!
# Names and what they find

A name finds an item of that very name, or else, if it is not exact, one whose name differs from it
only in case. Where no two names differ only in case, it finds at most one item, whatever their order.
Whatever type is read under a name is a base type, the type of a column, a declared type, an array of
such types or a field of one.
-/

namespace AnnotatedSql

/-- A named item is one of the items. -/
theorem findNamed_mem {α : Type} {nameOf : α → String} {items : List α} {name : String}
    {exact : Bool} {item : α} (found : findNamed nameOf items name exact = some item) :
    item ∈ items := by
  unfold findNamed at found
  split at found
  next first =>
    cases found
    exact List.mem_of_find?_eq_some first
  next =>
    split at found
    · cases found
    · exact List.mem_of_find?_eq_some found

/-- No two of the items have names that differ at most in case. -/
def NamesApart {α : Type} (nameOf : α → String) (items : List α) : Prop :=
  items.Pairwise fun a b => equalFold (nameOf a) (nameOf b) = false

instance {α : Type} (nameOf : α → String) (items : List α) :
    Decidable (NamesApart nameOf items) :=
  inferInstanceAs (Decidable (List.Pairwise _ _))

theorem NamesApart.eq {α : Type} {nameOf : α → String} {items : List α} {a b : α}
    (apart : NamesApart nameOf items) (first : a ∈ items) (second : b ∈ items)
    (same : equalFold (nameOf a) (nameOf b) = true) : a = b := by
  by_contra different
  have symmetric : Std.Symm fun a b => equalFold (nameOf a) (nameOf b) = false :=
    ⟨fun a b other => (equalFold_comm _ _).trans other⟩
  rw [List.Pairwise.forall apart first second different] at same
  cases same

/-- Where case does not tell names apart, the exact spelling need not be looked for first. -/
theorem findNamed_eq_find {α : Type} {nameOf : α → String} {items : List α}
    (apart : NamesApart nameOf items) (name : String) :
    findNamed nameOf items name false = items.find? fun item => equalFold (nameOf item) name := by
  unfold findNamed
  cases exact : items.find? fun item => nameOf item == name with
  | none => rfl
  | some item =>
    have member := List.mem_of_find?_eq_some exact
    have spelled : nameOf item = name := by simpa using List.find?_some exact
    cases folded : items.find? fun item => equalFold (nameOf item) name with
    | none =>
      have missing := List.find?_eq_none.mp folded item member
      simp [spelled] at missing
    | some other =>
      have answers := List.find?_some folded
      have same : equalFold (nameOf other) (nameOf item) = true := by rw [spelled, answers]
      rw [apart.eq (List.mem_of_find?_eq_some folded) member same]

/-! ## Types -/

namespace Schema

/-- The types that can be read from the schema. -/
inductive Offers (schema : Schema) : DataType → Prop
  | scalar (kind : Scalar) : Offers schema (.scalar kind)
  | column {relation : Relation} {column : Column} (known : relation ∈ schema.relations)
      (member : column ∈ relation.columns) : Offers schema column.type
  | declared {field : Field DataType} (member : field ∈ schema.types) : Offers schema field.type
  | array {element : DataType} (offered : Offers schema element) : Offers schema (.array element)
  | field {whole : DataType} {name : String} {field : Field DataType}
      (offered : Offers schema whole) (found : whole.field? name = some field) :
      Offers schema field.type

namespace Offers

variable {schema : Schema} {text : List Char} {type : DataType}

theorem namedType {name : String} {exact : Bool}
    (found : schema.namedType? name exact = some type) : schema.Offers type := by
  obtain ⟨declared, named, rfl⟩ := Option.map_eq_some_iff.mp found
  exact .declared (findNamed_mem named)

theorem elementType (found : schema.elementType? text = some type) : schema.Offers type := by
  unfold elementType? at found
  dsimp only at found
  split at found
  · cases found
    exact .scalar _
  · split at found
    · exact namedType found
    · exact namedType found

theorem typeWithin {fuel : Nat} (found : schema.typeWithin? fuel text = some type) :
    schema.Offers type := by
  induction fuel generalizing text type with
  | zero => exact elementType found
  | succ fuel ih =>
    unfold typeWithin? at found
    split at found
    · obtain ⟨element, inner, rfl⟩ := Option.map_eq_some_iff.mp found
      exact .array (ih inner)
    · exact elementType found

/-- A name stands for a type that the schema offers, or for none. -/
theorem typeNamed {name : String} (found : schema.typeNamed? name = some type) :
    schema.Offers type :=
  typeWithin found

end Offers

end Schema

end AnnotatedSql
