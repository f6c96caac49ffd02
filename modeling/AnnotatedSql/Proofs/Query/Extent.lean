import AnnotatedSql.Proofs.Block.HeaderLine
import AnnotatedSql.Proofs.Query.Shift
import AnnotatedSql.Proofs.Token.Lexing

/-!
# Reports stay in their block

Every token of a text stands within it. Reading a header only passes positions on, so that whatever
it says or finds wrong stands in the header line; findings on a query stand in its header line or in
its body.
-/

namespace AnnotatedSql

/-- Both ends of the span lie within the other. -/
structure Span.Inside (span outer : Span) : Prop where
  startAfter : outer.start ≤ span.start
  startBefore : span.start ≤ outer.stop
  stopAfter : outer.start ≤ span.stop
  stopBefore : span.stop ≤ outer.stop

namespace Span.Inside

variable {a b c : Span}

theorem trans (inner : a.Inside b) (outer : b.Inside c) : a.Inside c := by
  obtain ⟨h1, h2, h3, h4⟩ := inner
  obtain ⟨k1, k2, k3, k4⟩ := outer
  exact ⟨by omega, by omega, by omega, by omega⟩

theorem cover (left : a.Inside c) (right : b.Inside c) : (a.cover b).Inside c := by
  obtain ⟨h1, h2, h3, h4⟩ := left
  obtain ⟨k1, k2, k3, k4⟩ := right
  refine ⟨?_, ?_, ?_, ?_⟩ <;> simp only [Span.cover] <;> omega

end Span.Inside

/-! ## Tokens -/

theorem place_inside {offset : Nat} {lexemes : List Lexeme} {token : Token}
    (member : token ∈ place offset lexemes) :
    token.span.Inside ⟨offset, offset + byteLength (lexemes.flatMap (·.text.toList))⟩ := by
  induction lexemes generalizing offset with
  | nil => cases member
  | cons lexeme rest ih =>
    rw [List.flatMap_cons, byteLength_append]
    rcases List.mem_cons.mp member with rfl | member
    · refine ⟨?_, ?_, ?_, ?_⟩ <;> dsimp only <;> omega
    · obtain ⟨h1, h2, h3, h4⟩ := ih member
      refine ⟨?_, ?_, ?_, ?_⟩ <;> dsimp only at * <;> omega

/-- The tokens of a text stand within it. -/
theorem significantAt_inside {offset : Nat} {text : List Char} {token : Token}
    (member : token ∈ significantAt offset text) :
    token.span.Inside ⟨offset, offset + byteLength text⟩ := by
  have placed := place_inside (List.mem_filter.mp member).1
  rwa [lexemes_flatten] at placed

theorem Body.spanAt_inside {base : Nat} {text : List Char} {i : Nat}
    (inside : i < (read base text).statement.size) :
    ((read base text).spanAt i).Inside ⟨base, base + byteLength text⟩ := by
  rw [← read_size] at inside
  have length : i < (significantAt base text).length := inside
  have found : (read base text).spanAt i = (significantAt base text)[i].span := by
    simp [spanAt, read, List.getElem?_eq_getElem length]
  rw [found]
  exact significantAt_inside (List.getElem_mem length)

theorem Body.spanOf_inside {base : Nat} {text : List Char} {lo hi : Nat}
    (begins : lo < (read base text).statement.size)
    (ends : hi ≤ (read base text).statement.size) :
    ((read base text).spanOf lo hi).Inside ⟨base, base + byteLength text⟩ :=
  (spanAt_inside begins).cover (spanAt_inside (by omega))

/-! ## Headers -/

/-- The position brought into the span. -/
def Span.clamp (span : Span) (position : Nat) : Nat := max span.start (min position span.stop)

theorem Span.clamp_inside {outer : Span} (ordered : outer.start ≤ outer.stop) (span : Span) :
    (span.relocate outer.clamp).Inside outer := by
  refine ⟨?_, ?_, ?_, ?_⟩ <;> simp only [Span.relocate, Span.clamp] <;> omega

theorem Span.Inside.clamp_eq {span outer : Span} (inside : span.Inside outer) :
    span.relocate outer.clamp = span := by
  obtain ⟨h1, h2, h3, h4⟩ := inside
  simp only [Span.relocate, Span.clamp]
  congr 1 <;> omega

/-- Tokens within a span stay where they are when positions are brought into it. -/
theorem clamp_tokens {outer : Span} {tokens : List Token}
    (inside : ∀ token ∈ tokens, token.span.Inside outer) :
    tokens.map (Token.relocate outer.clamp) = tokens := by
  rw [List.map_congr_left fun token member => ?_, List.map_id]
  have fixed := (inside token member).clamp_eq
  exact congrArg (Token.mk token.toLexeme) fixed

/-- The positions of a header stand within the span of its tokens. -/
structure Header.Inside (header : Header) (outer : Span) : Prop where
  name : header.nameSpan.Inside outer
  declared : ∀ span ∈ header.declaredSpans, span.Inside outer
  optional : ∀ span, header.optionalSpan = some span → span.Inside outer

section

variable {outer : Span} {suffix : String} {tokens : List Token}
  (inside : ∀ token ∈ tokens, token.span.Inside outer)
include inside

theorem Header.ofTokens_inside (ordered : outer.start ≤ outer.stop) {header : Header}
    (read : ofTokens suffix tokens = .ok header) : header.Inside outer := by
  have fixed := ofTokens_relocate outer.clamp suffix tokens
  rw [clamp_tokens inside, read] at fixed
  have same : header = header.relocate outer.clamp := Except.ok.inj fixed
  refine ⟨?_, fun span member => ?_, fun span found => ?_⟩
  · rw [same]
    exact Span.clamp_inside ordered header.nameSpan
  · rw [same] at member
    obtain ⟨before, _, rfl⟩ := List.mem_map.mp member
    exact Span.clamp_inside ordered before
  · rw [same] at found
    obtain ⟨before, _, rfl⟩ := Option.map_eq_some_iff.mp found
    exact Span.clamp_inside ordered before

/-- So do those of its fault. -/
theorem HeaderFault.ofTokens_clamp {fault : HeaderFault}
    (read : Header.ofTokens suffix tokens = .error fault) :
    fault.relocate outer.clamp = fault := by
  have fixed := Header.ofTokens_relocate outer.clamp suffix tokens
  rw [clamp_tokens inside, read] at fixed
  exact (Except.error.inj fixed).symm

end

/-! ## Blocks -/

/-- The report is on the source, and it and all it refers to stand within the span. -/
structure Report.Inside (report : Report) (source : Nat) (outer : Span) : Prop where
  sameSource : report.source = source
  primary : report.span.Inside outer
  related : ∀ other ∈ report.related, other.source = source ∧ other.span.Inside outer

/-- A report that refers to no other place. -/
theorem Report.Inside.alone {kind : DiagnosticKind} {source : Nat} {span outer : Span}
    {message : String} (inside : span.Inside outer) :
    Report.Inside ⟨kind, source, span, message, []⟩ source outer :=
  ⟨rfl, inside, fun _ none => nomatch none⟩

/-- A report that refers to one other place. -/
theorem Report.Inside.referring {kind : DiagnosticKind} {source : Nat} {span other outer : Span}
    {message text : String} (inside : span.Inside outer) (otherInside : other.Inside outer) :
    Report.Inside ⟨kind, source, span, message, [⟨text, source, other⟩]⟩ source outer := by
  refine ⟨rfl, inside, fun related member => ?_⟩
  obtain rfl := List.mem_singleton.mp member
  exact ⟨rfl, otherInside⟩

namespace Block

variable (block : Block)

theorem lineSpan_ordered : block.lineSpan.start ≤ block.lineSpan.stop := Nat.le_add_right _ _

theorem lineSpan_inside : block.lineSpan.Inside block.span := by
  have content := block.lineSpan_stop_le
  have starts := block.lineSpan_ordered
  have start : block.lineSpan.start = block.start := rfl
  refine ⟨?_, ?_, ?_, ?_⟩ <;> simp only [span, bodySpan] <;> omega

theorem lineSpan_inside_line :
    block.lineSpan.Inside ⟨block.start, block.start + byteLength block.line⟩ := by
  have content := block.lineSpan_stop_le
  have starts := block.lineSpan_ordered
  have start : block.lineSpan.start = block.start := rfl
  refine ⟨?_, ?_, ?_, ?_⟩ <;> dsimp only <;> omega

theorem bodySpan_inside : block.bodySpan.Inside block.span := by
  refine ⟨?_, ?_, ?_, ?_⟩ <;> simp only [span, bodySpan] <;> omega

variable {block} (headed : isHeaderLine block.line = true)
include headed

theorem headerTokens_inside {token : Token} (member : token ∈ block.headerTokens) :
    token.span.Inside block.lineSpan := by
  obtain ⟨h1, h2, h3, h4⟩ := significantAt_inside member
  have stop := headerSpan_stop headed
  have start : block.lineSpan.start ≤ block.headerSpan.start := by
    simp only [lineSpan, headerSpan]
    omega
  dsimp only at h1 h2 h3 h4
  exact ⟨by omega, by omega, by omega, by omega⟩

end Block

/-- The report on a fault stands in the header line. -/
theorem HeaderFault.report_inside {source : Nat} {suffix : String} {block : Block}
    (headed : isHeaderLine block.line = true) {fault : HeaderFault}
    (read : Header.ofTokens suffix block.headerTokens = .error fault) :
    (fault.report source block).Inside source block.lineSpan := by
  have ordered := block.lineSpan_ordered
  have fixed := HeaderFault.ofTokens_clamp
    (fun _ => Block.headerTokens_inside headed) read
  have clamped : ∀ span : Span, (span.relocate block.lineSpan.clamp).Inside block.lineSpan :=
    Span.clamp_inside ordered
  have ending : (Span.emptyAt block.headerSpan.stop).Inside block.lineSpan :=
    ⟨ordered, Nat.le_refl _, ordered, Nat.le_refl _⟩
  rw [← fixed]
  cases fault with
  | unnamed => exact .alone ⟨Nat.le_refl _, ordered, ordered, Nat.le_refl _⟩
  | unexpected found expected => exact .alone (clamped found.span)
  | unclosedList opening => exact .referring ending (clamped opening)
  | duplicate name first => exact .referring (clamped name.span) (clamped first)
  | unterminated opening => exact .referring ending (clamped opening.span)
  | conflict marker earlier reason => exact .referring (clamped marker) (clamped earlier)

theorem HeaderFault.report_isError (source : Nat) (block : Block) (fault : HeaderFault) :
    (fault.report source block).isError = true := by
  cases fault <;> rfl

namespace Query

variable {source : Nat} {suffix : String} {block : Block}

/-- The header of a query stands in the header line, and its body is that of the block. -/
theorem ofBlock_inside (headed : isHeaderLine block.line = true) {query : Query}
    (read : ofBlock source suffix block = .ok query) :
    query.source = source ∧ query.header.Inside block.lineSpan ∧
      query.body = block.body ∧ query.bodySpan = block.bodySpan := by
  obtain ⟨header, parsed, _, rfl⟩ := ofBlock_eq_ok.mp read
  refine ⟨rfl, ?_, rfl, rfl⟩
  exact Header.ofTokens_inside (fun _ => Block.headerTokens_inside headed)
    block.lineSpan_ordered parsed

/-- A block without a query has an error in its header line. -/
theorem ofBlock_error (headed : isHeaderLine block.line = true) {report : Report}
    (read : ofBlock source suffix block = .error report) :
    report.isError = true ∧ report.Inside source block.lineSpan := by
  rcases ofBlock_eq_error.mp read with ⟨fault, failed, rfl⟩ | ⟨header, parsed, _, rfl⟩
  · exact ⟨HeaderFault.report_isError source block fault, HeaderFault.report_inside headed failed⟩
  · refine ⟨rfl, .alone ?_⟩
    exact (Header.ofTokens_inside (fun _ => Block.headerTokens_inside headed)
      block.lineSpan_ordered parsed).name

end Query

/-! ## Findings -/

/-- A place in the query stands in its header or in its body. -/
theorem Place.span_inside {query : Query} {outer : Span} (header : query.header.Inside outer)
    (body : Span.Inside ⟨query.bodySpan.start, query.bodySpan.start + byteLength query.body⟩ outer)
    {place : Place} (within : place.Within query.statement) :
    (place.span query query.read).Inside outer := by
  cases place with
  | tokens lo hi => exact (Body.spanOf_inside within.1 within.2).trans body
  | declaration index =>
    simp only [span]
    cases found : query.header.declaredSpans[index]? with
    | none => exact header.name
    | some span => exact header.declared span (List.mem_of_getElem? found)
  | optionalModifier =>
    simp only [span]
    cases found : query.header.optionalSpan with
    | none => exact header.name
    | some span => exact header.optional span found

theorem Finding.report_inside {query : Query} {outer : Span} (header : query.header.Inside outer)
    (body : Span.Inside ⟨query.bodySpan.start, query.bodySpan.start + byteLength query.body⟩ outer)
    {finding : Finding} (within : finding.Within query.statement) :
    (finding.report query query.read).Inside query.source outer := by
  refine ⟨rfl, Place.span_inside header body within.place, fun other member => ?_⟩
  obtain ⟨⟨message, place⟩, refers, rfl⟩ := List.mem_map.mp member
  refine ⟨rfl, Place.span_inside header body ?_⟩
  exact within.related message place (Option.mem_toList.mp refers)

namespace Query

variable {source : Nat} {suffix : String} {block : Block} {query : Query} {schema : Schema}

/-- The reports on the query of a block stand in that block. -/
theorem resolve_inside (headed : isHeaderLine block.line = true)
    (read : ofBlock source suffix block = .ok query) {report : Report}
    (member : report ∈ (query.resolve schema).2) : report.Inside source block.span := by
  obtain ⟨rfl, header, sameBody, sameSpan⟩ := ofBlock_inside headed read
  obtain ⟨finding, found, rfl⟩ := mem_resolve_reports.mp member
  have within := resolve_within query.statement_paired found
  have headerInside : query.header.Inside block.span :=
    ⟨header.name.trans block.lineSpan_inside,
      fun span member => (header.declared span member).trans block.lineSpan_inside,
      fun span found => (header.optional span found).trans block.lineSpan_inside⟩
  refine Finding.report_inside headerInside ?_ within
  rw [sameBody, sameSpan]
  exact block.bodySpan_inside

/-- A query that does not resolve has an error. -/
theorem resolve_error (fails : (query.resolve schema).1 = none) :
    ∃ report ∈ (query.resolve schema).2, report.isError = true := by
  obtain ⟨finding, found, isError⟩ :=
    resolve_none query.statement_paired (resolve_eq_none_iff.mp fails)
  exact ⟨_, mem_resolve_reports.mpr ⟨finding, found, rfl⟩, isError⟩

end Query

end AnnotatedSql
