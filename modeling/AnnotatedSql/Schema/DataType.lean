import AnnotatedSql.Schema.Scalar
import AnnotatedSql.Text.Word

/-!
# Data types

The type of a column, a composite field or a parameter. Composites and enums are declared by the
schema and carry their names.
-/

namespace AnnotatedSql

/-- A name with its type. -/
structure Field (α : Type) where
  name : String
  type : α
  deriving DecidableEq, Repr

/-- The type of a value. -/
inductive DataType
  | scalar (kind : Scalar)
  | composite (name : String) (fields : List (Field DataType))
  | enumeration (name : String) (variants : List String)
  | array (element : DataType)
  /-- Not known yet. -/
  | unresolved
  deriving Repr, Inhabited

namespace DataType

mutual

/-- Types are equal if their structure is. -/
def decideEq : (a b : DataType) → Decidable (a = b)
  | scalar a, scalar b => decidable_of_iff (a = b) (by simp)
  | composite a as, composite b bs =>
    match decEq a b, decideEqFields as bs with
    | isTrue h, isTrue hs => isTrue (by rw [h, hs])
    | isFalse h, _ => isFalse (by simp [h])
    | _, isFalse hs => isFalse (by simp [hs])
  | enumeration a as, enumeration b bs => decidable_of_iff (a = b ∧ as = bs) (by simp)
  | array a, array b =>
    match decideEq a b with
    | isTrue h => isTrue (by rw [h])
    | isFalse h => isFalse (by simp [h])
  | unresolved, unresolved => isTrue rfl
  | scalar _, composite _ _ | scalar _, enumeration _ _ | scalar _, array _
  | scalar _, unresolved => isFalse (by simp)
  | composite _ _, scalar _ | composite _ _, enumeration _ _ | composite _ _, array _
  | composite _ _, unresolved => isFalse (by simp)
  | enumeration _ _, scalar _ | enumeration _ _, composite _ _ | enumeration _ _, array _
  | enumeration _ _, unresolved => isFalse (by simp)
  | array _, scalar _ | array _, composite _ _ | array _, enumeration _ _
  | array _, unresolved => isFalse (by simp)
  | unresolved, scalar _ | unresolved, composite _ _ | unresolved, enumeration _ _
  | unresolved, array _ => isFalse (by simp)

/-- Lists of fields are equal if their names and types are. -/
def decideEqFields : (as bs : List (Field DataType)) → Decidable (as = bs)
  | [], [] => isTrue rfl
  | [], _ :: _ => isFalse (by simp)
  | _ :: _, [] => isFalse (by simp)
  | ⟨a, s⟩ :: as, ⟨b, t⟩ :: bs =>
    match decEq a b, decideEq s t, decideEqFields as bs with
    | isTrue h, isTrue ht, isTrue hs => isTrue (by rw [h, ht, hs])
    | isFalse h, _, _ => isFalse (by simp [h])
    | _, isFalse ht, _ => isFalse (by simp [ht])
    | _, _, isFalse hs => isFalse (by simp [hs])

end

instance : DecidableEq DataType := decideEq

mutual

/-- Whether no part of the type is unknown. -/
def isResolved : DataType → Bool
  | unresolved => false
  | scalar _ => true
  | enumeration _ _ => true
  | composite _ fields => fieldsResolved fields
  | array element => element.isResolved

/-- Whether the types of all fields are known. -/
def fieldsResolved : List (Field DataType) → Bool
  | [] => true
  | ⟨_, type⟩ :: fields => type.isResolved && fieldsResolved fields

end

mutual

/-- Whether the Rust type is `Copy`. A composite is if all its fields are. -/
def isCopy : DataType → Bool
  | scalar kind => kind.isCopy
  | enumeration _ _ => true
  | composite _ fields => fieldsCopy fields
  | array _ => false
  | unresolved => false

/-- Whether the types of all fields are `Copy`. -/
def fieldsCopy : List (Field DataType) → Bool
  | [] => true
  | ⟨_, type⟩ :: fields => type.isCopy && fieldsCopy fields

end

/-- The owned Rust type that holds a value; none while the type is unknown. -/
def rustType? : DataType → Option String
  | scalar kind => some kind.rustType
  | composite name _ => some ("types::" ++ pascalCase name)
  | enumeration name _ => some ("types::" ++ pascalCase name)
  | array element => element.rustType?.map fun type => "Vec<" ++ type ++ ">"
  | unresolved => none

/-- The type as messages name it. -/
def display : DataType → String
  | scalar kind => kind.sqlName
  | composite name _ => name
  | enumeration name _ => name
  | array element => element.display ++ "[]"
  | unresolved => "<unresolved>"

/-- The name of a type that the schema declares. -/
def declaredName? : DataType → Option String
  | composite name _ => some name
  | enumeration name _ => some name
  | _ => none

/-- The base type, if the type is one. -/
def scalar? : DataType → Option Scalar
  | scalar kind => some kind
  | _ => none

/-- The field of a composite with the given name, or else one whose name differs only in case. -/
def field? (type : DataType) (name : String) : Option (Field DataType) :=
  match type with
  | composite _ fields =>
    fields.find? (·.name == name) <|> fields.find? fun field => equalFold field.name name
  | _ => none

end DataType

end AnnotatedSql
