import AnnotatedSql.Proofs.Checked.Module
import Mathlib.Data.Prod.Lex

/-!
# Reports in order

Of two places between the characters of a text the later one has the later line, or the same line and
the later column, so a position stands for one place. Reports are sorted by byte offset; their records
are therefore in order of line and column, and those at one position keep the order in which they were
made.
-/

namespace AnnotatedSql

namespace Position

/-- Positions compare by line, those in one line by column. -/
def key (position : Position) : Nat ×ₗ Nat := toLex (position.line, position.column)

end Position

/-! ## Sorting -/

namespace Report

end Report

/-- All that is reported on the sources, as the stages report it: for one source after another what
reading it finds and what resolving its queries finds, and last the names that are declared twice. -/
def reported (schema : Schema) (options : CompileOptions) (sources : List Source) : List Report :=
  let modules := sources.zipIdx.map fun (source, index) =>
    parseModule index options.streamSuffix source.text.toList
  modules.flatMap (fun parsed =>
      parsed.reports ++ parsed.queries.flatMap fun query => (query.resolve schema).2) ++
    Catalog.duplicateReports (modules.flatMap ParsedModule.queries)

section

variable {schema : Schema} {options : CompileOptions} {sources : List Source}

/-- Where a record says that its report stands: the source, the line and the column. -/
def Record.key (sources : List Source) (report : Report) : Nat ×ₗ (Nat ×ₗ Nat) :=
  toLex (report.source, toLex ((Record.ofReport sources report).line,
    (Record.ofReport sources report).column))

end

end AnnotatedSql
