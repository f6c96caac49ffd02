import AnnotatedSql.Schema.DataType

/-!
# Schemas

A schema holds relations with their columns, and the composite and enum types that the database
declares. Names are unique among relations and among types. A lookup takes the name exactly as
written first; an unquoted name may then differ in case.
-/

namespace AnnotatedSql

/-- A column of a relation. -/
structure Column where
  name : String
  type : DataType
  nullable : Bool
  deriving DecidableEq, Repr

/-- A table or view with its columns in order. -/
structure Relation where
  name : String
  columns : List Column
  deriving DecidableEq, Repr

/-- The first item with the given name, or else, unless the name is exact, the first whose name
differs from it only in case. -/
def findNamed {α : Type} (nameOf : α → String) (items : List α) (name : String) (exact : Bool) :
    Option α :=
  match items.find? (fun item => nameOf item == name) with
  | some item => some item
  | none => if exact then none else items.find? fun item => equalFold (nameOf item) name

/-- The column that a name refers to. -/
def Relation.column? (relation : Relation) (name : String) (exact : Bool) : Option Column :=
  findNamed Column.name relation.columns name exact

/-- Why a schema is not well formed. -/
inductive SchemaFault
  /-- A column or field has a type that is neither a base type nor declared. -/
  | unknownType (owner typeName : String)
  /-- A composite contains itself. -/
  | recursiveComposite (name : String)
  | duplicateName (name : String)
  /-- Only composites and enums are declared under a name. -/
  | notANamedType (type : String)
  deriving DecidableEq, Repr

/-- The fault in words. -/
def SchemaFault.message : SchemaFault → String
  | unknownType owner typeName => "`" ++ owner ++ "` has unknown type `" ++ typeName ++ "`"
  | recursiveComposite name => "composite type `" ++ name ++ "` contains itself"
  | duplicateName name => "`" ++ name ++ "` is declared more than once"
  | notANamedType type => "`" ++ type ++ "` is not a composite or enum type"

/-- Relations, and types under their names, in order of declaration. -/
structure Schema where
  relations : List Relation := []
  types : List (Field DataType) := []
  deriving DecidableEq, Repr

namespace Schema

/-- Whether nothing is declared. -/
def isEmpty (schema : Schema) : Bool := schema.relations.isEmpty && schema.types.isEmpty

/-- Declares a relation. -/
def addRelation (schema : Schema) (relation : Relation) : Except SchemaFault Schema :=
  if schema.relations.any (·.name == relation.name) then .error (.duplicateName relation.name)
  else .ok { schema with relations := schema.relations ++ [relation] }

/-- Declares a composite or enum under its own name. -/
def addType (schema : Schema) (type : DataType) : Except SchemaFault Schema :=
  match type.declaredName? with
  | none => .error (.notANamedType type.display)
  | some name =>
    if schema.types.any (·.name == name) then .error (.duplicateName name)
    else .ok { schema with types := schema.types ++ [⟨name, type⟩] }

/-- The relation that a name refers to. -/
def relation? (schema : Schema) (name : String) (exact : Bool) : Option Relation :=
  findNamed Relation.name schema.relations name exact

/-- The declared type that a name refers to. -/
def namedType? (schema : Schema) (name : String) (exact : Bool) : Option DataType :=
  (findNamed Field.name schema.types name exact).map Field.type

end Schema

/-- Text without the ending `[]`, if it has one. -/
def withoutArraySuffix? (text : List Char) : Option (List Char) :=
  match text.reverse with
  | ']' :: '[' :: rest => some rest.reverse
  | _ => none

/-- Text without a modifier in parentheses at its end. -/
def withoutModifier (text : List Char) : List Char :=
  if text.contains '(' && text.getLast? == some ')' then trimEnd (text.takeWhile (· != '('))
  else text

/-- The text between the quotes that enclose it. A single quote encloses nothing. -/
def unquoted? (text : List Char) : Option (List Char) :=
  match text with
  | '"' :: rest => if rest.getLast? == some '"' then some rest.dropLast else none
  | _ => none

namespace Schema

/-- The type a name without array suffixes stands for. Base types come before declared ones. -/
def elementType? (schema : Schema) (text : List Char) : Option DataType :=
  let base := withoutModifier text
  match Scalar.ofSqlName? (String.ofList base) with
  | some kind => some (.scalar kind)
  | none =>
    match unquoted? base with
    | some inner => schema.namedType? (String.ofList inner) true
    | none => schema.namedType? (String.ofList base) false

/-- The type a name stands for, less at most `fuel` array suffixes. -/
def typeWithin? (schema : Schema) : Nat → List Char → Option DataType
  | 0, text => schema.elementType? (trim text)
  | fuel + 1, text =>
    match withoutArraySuffix? (trim text) with
    | some element => (schema.typeWithin? fuel element).map .array
    | none => schema.elementType? (trim text)

/-- The type a name stands for, as written in a cast or a schema file. Each ending `[]` makes an
array, and a modifier such as `(10, 2)` does not count. -/
def typeNamed? (schema : Schema) (name : String) : Option DataType :=
  schema.typeWithin? name.length name.toList

end Schema

end AnnotatedSql
