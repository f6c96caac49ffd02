import AnnotatedSql.Diagnostic.Kind
import AnnotatedSql.Source

/-!
# Reports

A report is one diagnostic at its place. Stages return lists of reports in the order they found
them; sorting orders them by source and then by position, and keeps that order among equals.
-/

namespace AnnotatedSql

/-- Another place a report refers to. -/
structure Related where
  message : String
  source : Nat
  span : Span
  deriving DecidableEq, Repr

/-- A diagnostic at its place. -/
structure Report where
  kind : DiagnosticKind
  source : Nat
  span : Span
  message : String
  related : List Related := []
  deriving DecidableEq, Repr

namespace Report

/-- A report worded by its kind alone. -/
def plain (kind : DiagnosticKind) (source : Nat) (span : Span) : Report :=
  { kind, source, span, message := kind.fallback }

/-- A report with a detail. -/
def detailed (kind : DiagnosticKind) (source : Nat) (span : Span) (detail : String)
    (related : List Related := []) : Report :=
  { kind, source, span, message := kind.detailed detail, related }

/-- The severity of its kind. -/
def severity (report : Report) : Severity := report.kind.severity

/-- Whether the report fails what it is about. -/
def isError (report : Report) : Bool := report.severity == .error

/-- Whether the report only warns. -/
def isWarning (report : Report) : Bool := report.severity == .warning

/-- Whether one report does not stand after another: sources first, then positions. -/
def precedes (a b : Report) : Bool :=
  a.source < b.source || (a.source == b.source && a.span.start ≤ b.span.start)

private def rangeText (span : Span) : String := toString span.start ++ ".." ++ toString span.stop

/-- The report on one line, with byte positions. -/
def display (report : Report) : String :=
  report.severity.name ++ " at " ++ rangeText report.span ++ ": " ++ report.message ++
    String.join (report.related.map fun related =>
      " (related: " ++ related.message ++ " at " ++ rangeText related.span ++ ")")

end Report

namespace Reports

/-- Orders reports by place and keeps the order of those at one place. -/
def sort (reports : List Report) : List Report := reports.mergeSort Report.precedes

/-- The number of errors. -/
def errorCount (reports : List Report) : Nat := reports.countP Report.isError

/-- The number of warnings. -/
def warningCount (reports : List Report) : Nat := reports.countP Report.isWarning

/-- Whether there is an error. -/
def hasErrors (reports : List Report) : Bool := reports.any Report.isError

/-- Whether there is a warning. -/
def hasWarnings (reports : List Report) : Bool := reports.any Report.isWarning

end Reports

/-- A report for other tools: its place by module name, line and column. -/
structure Record where
  moduleName : String
  line : Nat
  column : Nat
  kind : String
  severity : String
  message : String
  deriving DecidableEq, Repr

/-- The record of a report on one of the sources. -/
def Record.ofReport (sources : List Source) (report : Report) : Record :=
  let position := positionIn sources report.source report.span.start
  { moduleName := (sources[report.source]?.map fun s => s.origin.moduleName).getD ""
    line := position.line
    column := position.column
    kind := report.kind.name
    severity := report.severity.name
    message := report.message }

end AnnotatedSql
