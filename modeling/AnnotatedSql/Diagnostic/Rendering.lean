import AnnotatedSql.Diagnostic.Report
import AnnotatedSql.Excerpt.Basic

/-!
# Rendering of reports

A report is shown as the lines of its source with the place marked. Related places in the same
source are marked in the same excerpt; each one in another source has a note of its own.
-/

namespace AnnotatedSql

/-- A span as it is marked: an empty one takes in the next byte, if there is one. -/
def markedSpan (text : List Char) (span : Span) : Span :=
  if span.start == span.stop then ⟨span.start, min (span.start + 1) (byteLength text)⟩ else span

namespace Report

/-- An excerpt of a source with the given marks. -/
def excerpt (sources : List Source) (index : Nat) (level : Level) (title : String)
    (marks : List (Span × String × Bool)) : Excerpt :=
  let source := sources[index]?.getD default
  let text := source.text.toList
  { level, title, path := source.origin.displayName, text
    marks := marks.map fun (span, label, isPrimary) =>
      ⟨markedSpan text span, some label, isPrimary⟩ }

/-- The report with the lines it is about. -/
def render (sources : List Source) (colored : Bool) (report : Report) : String :=
  let (near, far) := report.related.partition (·.source == report.source)
  let main := excerpt sources report.source (.ofSeverity report.severity) report.message
    ((report.span, report.message, true) :: near.map fun r => (r.span, r.message, false))
  let notes := far.map fun r =>
    excerpt sources r.source .note r.message [(r.span, r.message, false)]
  Excerpt.writeAll colored main notes

end Report

/-- The reports one after another. -/
def Reports.render (sources : List Source) (colored : Bool) (reports : List Report) : String :=
  String.intercalate "\n" (reports.map (Report.render sources colored))

end AnnotatedSql
