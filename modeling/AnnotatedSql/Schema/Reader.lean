import AnnotatedSql.Json.Shape
import AnnotatedSql.Schema.File

/-!
# Reading schema files

A schema file is an object with the members `relations`, `composites` and `enums`, each of which
may be missing. Columns are nullable unless they say otherwise.
-/

namespace AnnotatedSql

open Json Json.Reader

namespace SchemaFile

/-- Sets a member that may be given but once. -/
def once {α : Type} (name : String) (old : Option α) (value : Reader α) : Reader (Option α) := do
  if old.isSome then failLater (.duplicateField name)
  colon
  return some (← value)

/-- The members of a column or field read so far. -/
structure Partial where
  name : Option String := none
  typeName : Option String := none
  nullable : Option Bool := none

/-- Reads a member of a column, or of a field, which has no `nullable`. Other members do not
count. -/
def Partial.member (withNullable : Bool) (read : Partial) (name : String) : Reader Partial := do
  if name == "name" then return { read with name := ← once name read.name string }
  else if name == "type" then return { read with typeName := ← once name read.typeName string }
  else if withNullable && name == "nullable" then
    return { read with nullable := ← once name read.nullable boolean }
  else
    colon
    skipValue
    return read

/-- A member that has to be given. -/
def required {α : Type} (name : String) : Option α → Reader α
  | some value => return value
  | none => failLater (.missingField name)

/-- An item of a list that stands for an object; `length` items come before it. -/
def item {α : Type} (expected : String) (length : Nat) (value : Reader α) : Reader α := do
  if ← hasItem (length == 0) then value
  else failLater (.invalidLength length expected)

/-- A column. -/
def column : Reader ColumnDeclaration :=
  structured "struct RawColumn"
    (do
      let read ← membersWithin (Partial.member true) (← fuel) true {}
      let name ← required "name" read.name
      let typeName ← required "type" read.typeName
      return { name, typeName, nullable := read.nullable.getD true })
    (do
      let expected := "struct RawColumn with 3 elements"
      let name ← item expected 0 string
      let typeName ← item expected 1 string
      let nullable ← if ← hasItem false then boolean else pure true
      return { name, typeName, nullable })

/-- A field of a composite. -/
def compositeField : Reader FieldDeclaration :=
  structured "struct RawField"
    (do
      let read ← membersWithin (Partial.member false) (← fuel) true {}
      let name ← required "name" read.name
      let typeName ← required "type" read.typeName
      return { name, typeName })
    (do
      let expected := "struct RawField with 2 elements"
      let name ← item expected 0 string
      let typeName ← item expected 1 string
      return { name, typeName })

/-- The members of a schema file read so far. -/
structure Sections where
  relations : Option (List (String × List ColumnDeclaration)) := none
  composites : Option (List (String × List FieldDeclaration)) := none
  enums : Option (List (String × List String)) := none

namespace Sections

/-- The schema file; sections that are missing are empty. -/
def file (sections : Sections) : SchemaFile :=
  { relations := sections.relations.getD []
    composites := sections.composites.getD []
    enums := sections.enums.getD [] }

/-- Reads a member of a schema file. -/
def member (read : Sections) (name : String) : Reader Sections := do
  if name == "relations" then
    return { read with relations := ← once name read.relations (map (list column)) }
  else if name == "composites" then
    return { read with composites := ← once name read.composites (map (list compositeField)) }
  else if name == "enums" then
    return { read with enums := ← once name read.enums (map (list string)) }
  else failLater (.unknownField name ["relations", "composites", "enums"])

/-- Reads the sections as the items of a list; those at the end may be missing. -/
def items : Reader Sections := do
  if !(← hasItem true) then return {}
  let relations ← map (list column)
  if !(← hasItem false) then return { relations := some relations }
  let composites ← map (list compositeField)
  if !(← hasItem false) then
    return { relations := some relations, composites := some composites }
  let enums ← map (list string)
  return { relations := some relations, composites := some composites, enums := some enums }

end Sections

/-- A schema file. -/
def reader : Reader SchemaFile :=
  structured "struct RawSchema"
    (do
      let read ← membersWithin Sections.member (← fuel) true {}
      return read.file)
    (do
      let read ← Sections.items
      return read.file)

/-- Reads the text of a schema file. -/
def ofText (text : List Char) : Except Problem SchemaFile := run reader text

end SchemaFile

/-- Why a schema file gives no schema. -/
inductive SchemaLoadFault
  | unreadable (problem : Problem)
  | illFormed (fault : SchemaFault)
  deriving DecidableEq, Repr

/-- The fault in words, for the file with the given text. -/
def SchemaLoadFault.message (text : List Char) : SchemaLoadFault → String
  | unreadable problem => "schema JSON parse error: " ++ problem.message text
  | illFormed fault => fault.message

/-- The schema that the text of a schema file declares. -/
def Schema.ofText (text : List Char) : Except SchemaLoadFault Schema :=
  match SchemaFile.ofText text with
  | .error problem => .error (.unreadable problem)
  | .ok file =>
    match file.build with
    | .error fault => .error (.illFormed fault)
    | .ok schema => .ok schema

end AnnotatedSql
