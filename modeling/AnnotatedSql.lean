import AnnotatedSql.Query
import AnnotatedSql.Statement.Body
import AnnotatedSql.Statement.Name
import AnnotatedSql.Schema.Reader
import AnnotatedSql.Json.Value
import AnnotatedSql.Text.Width
import AnnotatedSql.Schema.Encoding
import AnnotatedSql.Parameter.Key
import AnnotatedSql.Parameter.Hint
import AnnotatedSql.Finding
import AnnotatedSql.Parameter.Binding
import AnnotatedSql.Parameter.Encoding
import AnnotatedSql.Scope.Reference
import AnnotatedSql.Scope.Basic
import AnnotatedSql.Parameter.Typing
import AnnotatedSql.Projection.Expression
import AnnotatedSql.Projection.Basic
import AnnotatedSql.Resolution
import AnnotatedSql.Catalog.Entry
import AnnotatedSql.Catalog.Basic
import AnnotatedSql.Compilation
import AnnotatedSql.Excerpt.Canvas
import AnnotatedSql.Excerpt.Line
import AnnotatedSql.Excerpt.Mark
import AnnotatedSql.Excerpt.Margin
import AnnotatedSql.Excerpt.Drawing
import AnnotatedSql.Excerpt.Basic
import AnnotatedSql.Diagnostic.Rendering
import AnnotatedSql.CommandLine.Usage
import AnnotatedSql.CommandLine.Command
import AnnotatedSql.CommandLine.Files
import AnnotatedSql.CommandLine.Run
import AnnotatedSql.Main
import AnnotatedSql.Proofs.Catalog.WellFormed
import AnnotatedSql.Proofs.Compilation.Complete
import AnnotatedSql.Proofs.Module.Isolation
import AnnotatedSql.Proofs.Resolution.Placement
import AnnotatedSql.Proofs.Header.Relocation
import AnnotatedSql.Proofs.Header.Reading
import AnnotatedSql.Proofs.Header.Acceptance
import AnnotatedSql.Proofs.Header.RoundTrip
import AnnotatedSql.Proofs.Block.Tiling
import AnnotatedSql.Proofs.Query.Shift
import AnnotatedSql.Proofs.Token.Longest
import AnnotatedSql.Proofs.Token.Lexing
import AnnotatedSql.Proofs.Query.Extent
import AnnotatedSql.Proofs.Block.HeaderLine
import AnnotatedSql.Proofs.Catalog.Merge
import AnnotatedSql.Proofs.Catalog.Building
import AnnotatedSql.Proofs.Token.Avoidance
import AnnotatedSql.Proofs.Token.Language
import AnnotatedSql.Proofs.Token.Respelling
import AnnotatedSql.Proofs.Token.Trimming
import AnnotatedSql.Proofs.Parameter.Renaming
import AnnotatedSql.Proofs.Parameter.Renumbering
import AnnotatedSql.Proofs.Parameter.Placeholder
import AnnotatedSql.Proofs.Projection.Renumbered
import AnnotatedSql.Proofs.Query.Layout
import AnnotatedSql.Proofs.Token.Alike
import AnnotatedSql.Proofs.Query.Rewriting
import AnnotatedSql.Proofs.Query.Comments
import AnnotatedSql.Proofs.Token.Renaming
import AnnotatedSql.Proofs.Projection.Renamed
import AnnotatedSql.Proofs.Parameter.Names
import AnnotatedSql.Proofs.Query.Renaming
import AnnotatedSql.Proofs.Resolution.Mirrored
import AnnotatedSql.Proofs.Projection.Bare
import AnnotatedSql.Proofs.Statement.Masked
import AnnotatedSql.Proofs.Projection.Columns
import AnnotatedSql.Proofs.Projection.Itemwise
import AnnotatedSql.Proofs.Resolution.Folded
import AnnotatedSql.Proofs.Query.Recasing
import AnnotatedSql.Proofs.Text.Cutting
import AnnotatedSql.Proofs.Token.Tiling
import AnnotatedSql.Proofs.Block.Partition
import AnnotatedSql.Proofs.Schema.Declared
import AnnotatedSql.Proofs.Schema.Recursion
import AnnotatedSql.Proofs.Schema.Reordered
import AnnotatedSql.Proofs.Checked.Basic
import AnnotatedSql.Proofs.Checked.Token
import AnnotatedSql.Proofs.Checked.Block
import AnnotatedSql.Proofs.Checked.Header
import AnnotatedSql.Proofs.Checked.Nesting
import AnnotatedSql.Proofs.Checked.Statement
import AnnotatedSql.Proofs.Checked.Binding
import AnnotatedSql.Proofs.Checked.Rewriting
import AnnotatedSql.Proofs.Checked.Scope
import AnnotatedSql.Proofs.Checked.Typing
import AnnotatedSql.Proofs.Checked.Projection
import AnnotatedSql.Proofs.Checked.Report
import AnnotatedSql.Proofs.Checked.Query
import AnnotatedSql.Proofs.Checked.Module
import AnnotatedSql.Proofs.Parameter.Acceptance
import AnnotatedSql.Proofs.Parameter.Slots
import AnnotatedSql.Proofs.Parameter.Clashes
import AnnotatedSql.Proofs.CommandLine.Reading
import AnnotatedSql.Proofs.CommandLine.Listing
import AnnotatedSql.Proofs.CommandLine.Agreement
import AnnotatedSql.Proofs.Statement.Pairing
import AnnotatedSql.Proofs.Parameter.Casts
import AnnotatedSql.Proofs.Statement.TypeSpelling
import AnnotatedSql.Proofs.Schema.TypeText
import AnnotatedSql.Proofs.Parameter.Hints
import AnnotatedSql.Proofs.Token.Quoting
import AnnotatedSql.Proofs.Schema.Quoted
import AnnotatedSql.Proofs.Query.Reporting
import AnnotatedSql.Proofs.Statement.Level
import AnnotatedSql.Proofs.Statement.Reference
import AnnotatedSql.Proofs.Resolution.Tables
import AnnotatedSql.Proofs.Statement.FromList
import AnnotatedSql.Proofs.Statement.FromScan
import AnnotatedSql.Proofs.Query.Star
import AnnotatedSql.Proofs.Query.Continued
import AnnotatedSql.Proofs.Query.Wrapped
import AnnotatedSql.Proofs.Query.JoinChain
import AnnotatedSql.Proofs.Query.Inserted
import AnnotatedSql.Proofs.Query.Compared
import AnnotatedSql.Proofs.Query.Naming
import AnnotatedSql.Proofs.Compilation.Ordered
import AnnotatedSql.Proofs.Token.Munch
import AnnotatedSql.Proofs.Parameter.Agreement
import AnnotatedSql.Proofs.Statement.Parentheses
import AnnotatedSql.Proofs.Statement.Splitting
import AnnotatedSql.Proofs.Resolution.Lookup
import AnnotatedSql.Proofs.Catalog.StructNames
