import AnnotatedSql.Catalog.Basic

/-!
# Compilation

Compiling sources under a schema gives the catalog of their queries and the reports on them, sorted
by place. The catalog counts only if there are no errors, and no warnings either where compiling is
strict.
-/

namespace AnnotatedSql

/-- How sources are compiled. -/
structure CompileOptions where
  /-- What the names of streaming queries end with. -/
  streamSuffix : String := "_stream"
  /-- Warnings count as errors. -/
  strict : Bool := false
  deriving DecidableEq, Repr

/-- The result of compiling sources. -/
structure Compilation where
  catalog : List CatalogEntry
  /-- All reports, in order of place. -/
  reports : List Report
  strict : Bool

/-- Why there is no catalog. -/
inductive CompileFault
  | cancelled
  | failed (errors warnings : Nat)
  deriving DecidableEq, Repr

/-- The fault in words. -/
def CompileFault.message : CompileFault → String
  | cancelled => "compilation cancelled"
  | failed errors warnings =>
    "compilation failed with " ++ toString errors ++ " errors and " ++ toString warnings ++
      " warnings"

namespace Compilation

/-- Whether the catalog counts. -/
def isValid (compilation : Compilation) : Bool :=
  !Reports.hasErrors compilation.reports &&
    !(compilation.strict && Reports.hasWarnings compilation.reports)

/-- The catalog if it counts. -/
def catalogIfValid (compilation : Compilation) : Except CompileFault (List CatalogEntry) :=
  if compilation.isValid then .ok compilation.catalog
  else .error (.failed (Reports.errorCount compilation.reports)
    (Reports.warningCount compilation.reports))

end Compilation

/-- Compiles the modules one by one. -/
def compileModules (schema : Schema) (suffix : String) (sources : List Source) :
    List CompiledModule :=
  sources.zipIdx.map fun (source, index) => compileModule schema suffix source index

/-- Merges compiled modules. -/
def merge (strict : Bool) (modules : List CompiledModule) : Compilation :=
  { catalog := Catalog.ofModules modules
    reports := Reports.sort (modules.flatMap CompiledModule.reports ++
      Catalog.duplicateReports (modules.flatMap CompiledModule.declared))
    strict }

/-- Compiles the sources. -/
def compile (schema : Schema) (options : CompileOptions) (sources : List Source) : Compilation :=
  merge options.strict (compileModules schema options.streamSuffix sources)

/-- Compiles the sources unless that is cancelled beforehand. -/
def compileUnless (cancelled : Bool) (schema : Schema) (options : CompileOptions)
    (sources : List Source) : Except CompileFault Compilation :=
  if cancelled then .error .cancelled else .ok (compile schema options sources)

end AnnotatedSql
