import AnnotatedSql.Catalog.Entry

/-!
# Catalogs

A catalog holds one entry for each query name, in the order of modules and then of the text. The
first query of a name that resolves keeps it. A name that is declared more than once is reported,
once, whether its queries resolve or not.
-/

namespace AnnotatedSql

/-- What one module adds to a catalog. -/
structure CompiledModule where
  name : String
  /-- All queries of the module. -/
  declared : List Query
  /-- Those that resolve. -/
  resolved : List ResolvedQuery
  /-- What is wrong with the module and its queries. -/
  reports : List Report

/-- Resolves all queries of a module. -/
def compileModule (schema : Schema) (suffix : String) (source : Source) (index : Nat) :
    CompiledModule :=
  let parsed := parseModule index suffix source.text.toList
  let outcomes := parsed.queries.map (Query.resolve schema)
  { name := source.origin.moduleName
    declared := parsed.queries
    resolved := outcomes.filterMap Prod.fst
    reports := parsed.reports ++ outcomes.flatMap Prod.snd }

namespace Catalog

/-- The entries of a module in order. -/
def entriesOf (compiled : CompiledModule) : List CatalogEntry :=
  compiled.resolved.map (⟨compiled.name, ·⟩)

/-- The entries without those whose name an earlier one has. -/
def firstOfName : List CatalogEntry → List CatalogEntry
  | [] => []
  | entry :: rest => entry :: (firstOfName rest).filter fun other => other.name != entry.name

/-- The catalog of some modules. -/
def ofModules (modules : List CompiledModule) : List CatalogEntry :=
  firstOfName (modules.flatMap entriesOf)

/-- The report on the queries that share a name: at the second, referring to the others. -/
def duplicateReport? (name : String) : List Query → Option Report
  | first :: second :: others =>
    let related (message : String) (query : Query) : Related :=
      ⟨message, query.source, query.nameSpan⟩
    some (.detailed .duplicateQueryName second.source second.nameSpan name
      (related "first defined here" first :: others.map (related "also defined here")))
  | _ => none

/-- The reports on names that are declared more than once, in order of first declaration. -/
def duplicateReports (queries : List Query) : List Report :=
  (queries.map Query.name).eraseDups.filterMap fun name =>
    duplicateReport? name (queries.filter (·.name == name))

/-- The entry with the given name. -/
def get? (entries : List CatalogEntry) (name : String) : Option CatalogEntry :=
  entries.find? (·.name == name)

/-- A catalog as other tools read it. -/
def encode (entries : List CatalogEntry) : Json := .array (entries.map CatalogEntry.encode)

end Catalog

end AnnotatedSql
