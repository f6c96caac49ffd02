import AnnotatedSql.Header.Parser

/-!
# Queries of a module

A query is a header and the body it heads. Each block of a module is a query or one fault; faults
never affect other blocks.
-/

namespace AnnotatedSql

/-- A query as written: what its header says and the text of its body, each at its place. -/
structure Query where
  source : Nat
  header : Header
  /-- The header text after the marker. -/
  headerSpan : Span
  body : List Char
  bodySpan : Span
  deriving DecidableEq, Repr

namespace Query

/-- What the header says. -/
def descriptor (query : Query) : Descriptor := query.header.descriptor

/-- The name in the header. -/
def name (query : Query) : String := query.header.descriptor.name

/-- The place of the name. -/
def nameSpan (query : Query) : Span := query.header.nameSpan

/-- Reads a block. A body of nothing but semicolons, blanks and comments is a fault. -/
def ofBlock (source : Nat) (suffix : String) (block : Block) : Except Report Query :=
  match Header.ofTokens suffix block.headerTokens with
  | .error fault => .error (fault.report source block)
  | .ok header =>
    if block.bodyTokens.any fun token => token.kind != .semicolon then
      .ok { source, header, headerSpan := block.headerSpan
            body := block.body, bodySpan := block.bodySpan }
    else .error (.detailed .emptyQueryBody source header.nameSpan header.descriptor.name)

variable {source : Nat} {suffix : String} {block : Block}

/-- A block is a query if its header is read and its body is not empty. -/
theorem ofBlock_eq_ok {query : Query} : ofBlock source suffix block = .ok query ↔
    ∃ header, Header.ofTokens suffix block.headerTokens = .ok header ∧
      (block.bodyTokens.any fun token => token.kind != .semicolon) = true ∧
      query = ⟨source, header, block.headerSpan, block.body, block.bodySpan⟩ := by
  unfold ofBlock
  cases Header.ofTokens suffix block.headerTokens with
  | error fault => simp
  | ok header =>
    cases block.bodyTokens.any fun token => token.kind != .semicolon with
    | true => simpa using eq_comm
    | false => simp

/-- Otherwise something is wrong with the header, or the body is empty. -/
theorem ofBlock_eq_error {report : Report} : ofBlock source suffix block = .error report ↔
    (∃ fault, Header.ofTokens suffix block.headerTokens = .error fault ∧
      report = fault.report source block) ∨
    ∃ header, Header.ofTokens suffix block.headerTokens = .ok header ∧
      (block.bodyTokens.any fun token => token.kind != .semicolon) = false ∧
      report = .detailed .emptyQueryBody source header.nameSpan header.descriptor.name := by
  unfold ofBlock
  cases Header.ofTokens suffix block.headerTokens with
  | error fault => simpa using eq_comm
  | ok header =>
    cases block.bodyTokens.any fun token => token.kind != .semicolon with
    | true => simp
    | false => simpa using eq_comm

end Query

/-- The report on significant text before the first header. -/
def strayReports (source : Nat) (preamble : List Char) : List Report :=
  match significantAt 0 preamble with
  | [] => []
  | first :: rest =>
    let last := rest.getLast?.getD first
    [.plain .sqlOutsideQuery source (first.span.cover last.span)]

/-- The reading of one module. -/
structure ParsedModule where
  queries : List Query
  reports : List Report

/-- Reads a module: its queries in order, and a report on every part that is none. -/
def parseModule (source : Nat) (suffix : String) (text : List Char) : ParsedModule :=
  let layout := Layout.ofText text
  let outcomes := layout.blocks.map (Query.ofBlock source suffix)
  { queries := outcomes.filterMap Except.toOption
    reports := strayReports source layout.preamble ++ outcomes.filterMap fun
      | .error report => some report
      | .ok _ => none }

/-- The queries of a module are those of its blocks. -/
theorem mem_parseModule_queries {source : Nat} {suffix : String} {text : List Char} {query : Query} :
    query ∈ (parseModule source suffix text).queries ↔
      ∃ block ∈ (Layout.ofText text).blocks, Query.ofBlock source suffix block = .ok query := by
  have accepted : ∀ outcome : Except Report Query,
      outcome.toOption = some query ↔ outcome = .ok query := by
    intro outcome
    cases outcome <;> simp [Except.toOption]
  simp only [parseModule, List.mem_filterMap, List.mem_map, accepted]
  constructor
  · rintro ⟨_, ⟨block, listed, rfl⟩, read⟩
    exact ⟨block, listed, read⟩
  · rintro ⟨block, listed, read⟩
    exact ⟨_, ⟨block, listed, rfl⟩, read⟩

end AnnotatedSql
