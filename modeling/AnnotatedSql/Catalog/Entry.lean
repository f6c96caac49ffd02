import AnnotatedSql.Parameter.Encoding
import AnnotatedSql.Resolution

/-!
# Catalog entries

An entry is a resolved query of a module, with the names that generated code gives to its rows and
its arguments.
-/

namespace AnnotatedSql

/-- A resolved query and the module that defines it. -/
structure CatalogEntry where
  moduleName : String
  resolved : ResolvedQuery
  deriving DecidableEq, Repr

namespace CatalogEntry

/-- The query as written. -/
def query (entry : CatalogEntry) : Query := entry.resolved.query

/-- The name of the query, which is unique in a catalog. -/
def name (entry : CatalogEntry) : String := entry.query.name

/-- What the header of the query says. -/
def descriptor (entry : CatalogEntry) : Descriptor := entry.query.descriptor

/-- The parameters of the query in slot order. -/
def parameters (entry : CatalogEntry) : List Parameter := entry.resolved.parameters

/-- The columns of the rows; none if there are no rows. -/
def columns (entry : CatalogEntry) : List ResultColumn := entry.resolved.columns

/-- Whether the query returns rows. -/
def returnsRows (entry : CatalogEntry) : Bool :=
  match entry.resolved.result with
  | .rows _ => true
  | .execute => false

/-- The name of the type that a row is read into, if there are rows. -/
def rowStruct? (entry : CatalogEntry) : Option String :=
  if entry.returnsRows then some (pascalCase entry.name) else none

/-- The name of the type that holds the arguments, if there are any. -/
def paramsStruct? (entry : CatalogEntry) : Option String :=
  if entry.parameters.isEmpty then none else some (pascalCase entry.name ++ "Params")

/-- Whether a row is `Copy`. -/
def rowIsCopy (entry : CatalogEntry) : Bool :=
  entry.returnsRows && entry.columns.all (·.type.isCopy)

/-- Whether the arguments are `Copy`. -/
def paramsAreCopy (entry : CatalogEntry) : Bool := entry.parameters.all (·.type.isCopy)

end CatalogEntry

/-! ## Written form -/

namespace Cardinality

/-- The word for a cardinality in catalogs. -/
def name : Cardinality → String
  | many => "many"
  | atMostOne => "at_most_one"
  | exactlyOne => "exactly_one"

end Cardinality

namespace QueryResult

/-- The word for a result in catalogs. -/
def name : QueryResult → String
  | rows _ => "rows"
  | execute => "execute"

end QueryResult

namespace ResultColumn

/-- The column with the owned type that holds its value. -/
def encode (column : ResultColumn) : Json :=
  .object [
    ⟨"name", .string column.name⟩,
    ⟨"type", column.type.encode⟩,
    ⟨"nullable", .bool column.nullable⟩,
    ⟨"rust_type", Json.ofOption .string column.rustType?⟩,
    ⟨"is_copy", .bool column.type.isCopy⟩]

end ResultColumn

namespace CatalogEntry

/-- The entry as catalogs write it. -/
def encode (entry : CatalogEntry) : Json :=
  .object [
    ⟨"name", .string entry.name⟩,
    ⟨"module", .string entry.moduleName⟩,
    ⟨"binding_style", entry.descriptor.bindingStyle.encode⟩,
    ⟨"cardinality", .string entry.descriptor.cardinality.name⟩,
    ⟨"streaming", .bool entry.descriptor.streaming⟩,
    ⟨"result", .string entry.resolved.result.name⟩,
    ⟨"row_struct", Json.ofOption .string entry.rowStruct?⟩,
    ⟨"params_struct", Json.ofOption .string entry.paramsStruct?⟩,
    ⟨"row_is_copy", .bool entry.rowIsCopy⟩,
    ⟨"params_are_copy", .bool entry.paramsAreCopy⟩,
    ⟨"params", .array (entry.parameters.map Parameter.encode)⟩,
    ⟨"columns", .array (entry.columns.map ResultColumn.encode)⟩,
    ⟨"sql", .string entry.query.sql⟩,
    ⟨"rewritten_sql", .string entry.resolved.rewrittenSql⟩]

end CatalogEntry

end AnnotatedSql
