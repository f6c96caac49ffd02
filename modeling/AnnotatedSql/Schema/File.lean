import AnnotatedSql.Schema.Basic

/-!
# Schema files

A schema file declares relations, composites and enums by name, in order, and gives the type of
every column and field as text. Building the schema resolves these texts. Composites may refer to
one another in any order, but not in a circle.
-/

namespace AnnotatedSql

/-- A column as declared. -/
structure ColumnDeclaration where
  name : String
  typeName : String
  nullable : Bool
  deriving DecidableEq, Repr

/-- A field of a composite as declared. -/
structure FieldDeclaration where
  name : String
  typeName : String
  deriving DecidableEq, Repr

/-- The contents of a schema file. The names in each list are distinct. -/
structure SchemaFile where
  relations : List (String × List ColumnDeclaration) := []
  composites : List (String × List FieldDeclaration) := []
  enums : List (String × List String) := []
  deriving DecidableEq, Repr

/-- Text without any `[]` it ends with, at most `fuel` of them. -/
def dropArraySuffixes : Nat → List Char → List Char
  | 0, text => text
  | fuel + 1, text =>
    match withoutArraySuffix? text with
    | some element => dropArraySuffixes fuel element
    | none => text

/-- A type text without blanks around it and without the array suffixes. -/
def elementText (typeName : String) : List Char :=
  trimEnd (dropArraySuffixes typeName.length (trim typeName.toList))

namespace SchemaFile

/-- The declared composite that a type text without array suffixes refers to. -/
def compositeNamed? (file : SchemaFile) (text : List Char) : Option String :=
  match unquoted? text with
  | some inner => (findNamed Prod.fst file.composites (String.ofList inner) true).map Prod.fst
  | none => (findNamed Prod.fst file.composites (String.ofList text) false).map Prod.fst

/-- Declares the enums. -/
def declareEnums (file : SchemaFile) (schema : Schema) : Except SchemaFault Schema :=
  file.enums.foldlM (fun schema (name, variants) => schema.addType (.enumeration name variants))
    schema

/-- The type of a column or field. -/
def resolveType (schema : Schema) (owner name typeName : String) : Except SchemaFault DataType :=
  match schema.typeNamed? typeName with
  | some type => .ok type
  | none => .error (.unknownType (owner ++ "." ++ name) typeName)

/-- Resolves the fields of the composite `owner`. `define` declares the composite that a field
refers to before the field's own type is looked up. -/
def defineFields (file : SchemaFile) (define : Schema → String → Except SchemaFault Schema)
    (owner : String) (schema : Schema) :
    List FieldDeclaration → Except SchemaFault (Schema × List (Field DataType))
  | [] => .ok (schema, [])
  | field :: rest => do
    let schema ← match file.compositeNamed? (elementText field.typeName) with
      | some dependency => define schema dependency
      | none => .ok schema
    let type ← resolveType schema owner field.name field.typeName
    let (schema, fields) ← defineFields file define owner schema rest
    .ok (schema, ⟨field.name, type⟩ :: fields)

/-- Declares a composite after those its fields refer to. `resolving` are the composites being
declared, the last one asked for at the head. They are distinct, so the number of composites bounds
the depth. -/
def defineComposite (file : SchemaFile) :
    Nat → List String → Schema → String → Except SchemaFault Schema
  | fuel, resolving, schema, name =>
    if (schema.namedType? name true).isSome then .ok schema
    else if resolving.contains name then .error (.recursiveComposite name)
    else match fuel with
      | 0 => .error (.recursiveComposite name)
      | fuel + 1 => do
        let declared := (file.composites.lookup name).getD []
        let (schema, fields) ←
          file.defineFields (file.defineComposite fuel (name :: resolving)) name schema declared
        schema.addType (.composite name fields)

/-- Declares the composites. -/
def declareComposites (file : SchemaFile) (schema : Schema) : Except SchemaFault Schema :=
  file.composites.foldlM
    (fun schema (name, _) => defineComposite file file.composites.length [] schema name) schema

/-- A relation with the types of its columns. -/
def resolveRelation (schema : Schema) (name : String) (columns : List ColumnDeclaration) :
    Except SchemaFault Relation := do
  let columns ← columns.mapM fun column => do
    let type ← resolveType schema name column.name column.typeName
    return { name := column.name, type, nullable := column.nullable : Column }
  return { name, columns }

/-- Declares the relations. -/
def declareRelations (file : SchemaFile) (schema : Schema) : Except SchemaFault Schema :=
  file.relations.foldlM (fun schema (name, columns) => do
    schema.addRelation (← resolveRelation schema name columns)) schema

/-- The schema that the file declares: enums first, then composites, then relations. -/
def build (file : SchemaFile) : Except SchemaFault Schema := do
  file.declareRelations (← file.declareComposites (← file.declareEnums {}))

end SchemaFile

end AnnotatedSql
