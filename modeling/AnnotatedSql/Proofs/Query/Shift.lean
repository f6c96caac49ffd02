import AnnotatedSql.Proofs.Block.Tiling
import AnnotatedSql.Proofs.Header.Relocation
import AnnotatedSql.Proofs.Resolution.Placement
import AnnotatedSql.Proofs.Token.Tiling

/-!
# Queries that begin later

A block that begins some bytes later holds the same query, and the query resolves to the same types,
columns and findings. All that changes is where its parts stand, each later by the same number of
bytes.
-/

namespace AnnotatedSql

/-! ## Tokens -/

theorem place_shift (shift offset : Nat) (lexemes : List Lexeme) :
    place (offset + shift) lexemes =
      (place offset lexemes).map (Token.relocate (· + shift)) := by
  induction lexemes generalizing offset with
  | nil => rfl
  | cons lexeme rest ih =>
    rw [place, place, List.map_cons, ← ih, Nat.add_right_comm]
    rfl

theorem significantAt_shift (shift offset : Nat) (text : List Char) :
    significantAt (offset + shift) text =
      (significantAt offset text).map (Token.relocate (· + shift)) := by
  unfold significantAt lexAt
  rw [place_shift, List.filter_map]
  rfl

/-- The lexemes of a text that carry meaning. -/
def significant (text : List Char) : List Lexeme :=
  (lexemes text).filter fun lexeme => !lexeme.kind.isTrivia

/-- The significant tokens of a text are its significant lexemes, wherever it stands. -/
theorem significantAt_lexemes (offset : Nat) (text : List Char) :
    (significantAt offset text).map (·.toLexeme) = significant text := by
  unfold significantAt lexAt significant
  rw [← place_lexeme offset (lexemes text), List.filter_map]
  simp only [place_lexeme]
  rfl

/-! ## Bodies -/

namespace Body

variable {base : Nat} {text : List Char}

theorem read_statement (base : Nat) (text : List Char) :
    (read base text).statement = .ofLexemes (significant text) := by
  unfold statement read
  rw [List.toList_toArray, significantAt_lexemes]

theorem read_size (base : Nat) (text : List Char) :
    (read base text).tokens.size = (read base text).statement.size := by
  simp [statement, Statement.ofLexemes, Statement.size]

theorem spanAt_shift (shift : Nat) {i : Nat} (inside : i < (read base text).statement.size) :
    (read (base + shift) text).spanAt i = ((read base text).spanAt i).shift shift := by
  rw [← read_size] at inside
  have length : i < (significantAt base text).length := inside
  simp [spanAt, read, significantAt_shift, List.getElem?_eq_getElem length, Span.relocate,
    Span.shift]

theorem spanOf_shift (shift : Nat) {lo hi : Nat} (begins : lo < (read base text).statement.size)
    (ends : hi ≤ (read base text).statement.size) :
    (read (base + shift) text).spanOf lo hi = ((read base text).spanOf lo hi).shift shift := by
  unfold spanOf
  rw [spanAt_shift shift begins, spanAt_shift shift (by omega)]
  simp only [Span.cover, Span.shift, Span.mk.injEq]
  omega

theorem slice_shift (shift : Nat) (span : Span) (tokens others : Array Token) :
    (Body.mk (base + shift) text tokens).slice (span.shift shift) =
      (Body.mk base text others).slice span := by
  simp only [slice, Span.slice, Span.shift, Nat.add_sub_add_right]

end Body

/-! ## Reports -/

/-- The other place in a text that begins `offset` bytes later. -/
def Related.shift (offset : Nat) (related : Related) : Related :=
  { related with span := related.span.shift offset }

/-- The report on a text that begins `offset` bytes later. -/
def Report.shift (offset : Nat) (report : Report) : Report :=
  { report with
    span := report.span.shift offset
    related := report.related.map (Related.shift offset) }

namespace Block

variable (offset : Nat) (block : Block)

theorem shift_lineSpan : (block.shift offset).lineSpan = block.lineSpan.shift offset := by
  simp [shift, lineSpan, content, Span.shift, Nat.add_right_comm]

theorem shift_headerSpan : (block.shift offset).headerSpan = block.headerSpan.shift offset := by
  simp [shift, headerSpan, lineSpan, indent, content, Span.shift, Nat.add_right_comm]

theorem shift_bodySpan : (block.shift offset).bodySpan = block.bodySpan.shift offset := by
  simp [shift, bodySpan, Span.shift, Nat.add_right_comm]

theorem shift_headerTokens : (block.shift offset).headerTokens =
    block.headerTokens.map (Token.relocate (· + offset)) := by
  unfold headerTokens
  rw [shift_headerSpan]
  exact significantAt_shift offset _ _

theorem shift_bodyTokens : (block.shift offset).bodyTokens =
    block.bodyTokens.map (Token.relocate (· + offset)) := by
  unfold bodyTokens
  rw [shift_bodySpan]
  exact significantAt_shift offset _ _

end Block

theorem HeaderFault.report_shift (source offset : Nat) (block : Block) (fault : HeaderFault) :
    (fault.relocate (· + offset)).report source (block.shift offset) =
      (fault.report source block).shift offset := by
  cases fault with
  | unnamed =>
    simp only [relocate, report, Block.shift_lineSpan]
    rfl
  | unclosedList opening =>
    simp only [relocate, report, Block.shift_headerSpan]
    rfl
  | unterminated opening =>
    simp only [relocate, report, Block.shift_headerSpan]
    rfl
  | unexpected found expected => rfl
  | duplicate name first => rfl
  | conflict marker earlier reason => rfl

namespace Query

/-- The query in a text that begins `offset` bytes later. -/
def shift (offset : Nat) (query : Query) : Query :=
  { query with
    header := query.header.relocate (· + offset)
    headerSpan := query.headerSpan.shift offset
    bodySpan := query.bodySpan.shift offset }

/-- What a block says does not depend on where it begins. -/
theorem ofBlock_shift (source : Nat) (suffix : String) (offset : Nat) (block : Block) :
    ofBlock source suffix (block.shift offset) =
      mapBoth (Report.shift offset) (shift offset) (ofBlock source suffix block) := by
  unfold ofBlock
  rw [Block.shift_headerTokens, Header.ofTokens_relocate, Block.shift_bodyTokens, List.any_map]
  cases Header.ofTokens suffix block.headerTokens with
  | error fault => exact congrArg Except.error (HeaderFault.report_shift source offset block fault)
  | ok header =>
    refine mapBoth_ite ?_ rfl
    simp only [Block.shift_headerSpan, Block.shift_bodySpan]
    rfl

@[simp] theorem shift_statement (offset : Nat) (query : Query) :
    (query.shift offset).statement = query.statement := by
  simp only [statement, read, Body.read_statement, shift]

@[simp] theorem shift_descriptor (offset : Nat) (query : Query) :
    (query.shift offset).descriptor = query.descriptor := rfl

theorem statement_paired (query : Query) : query.statement.Paired := by
  unfold statement read
  rw [Body.read_statement]
  exact Statement.ofLexemes_paired _

end Query

/-! ## Findings -/

theorem Place.span_shift (query : Query) (offset : Nat) {place : Place}
    (within : place.Within query.statement) :
    place.span (query.shift offset) (query.shift offset).read =
      (place.span query query.read).shift offset := by
  cases place with
  | tokens lo hi => exact Body.spanOf_shift offset within.1 within.2
  | declaration index =>
    simp only [span, Query.shift, Header.relocate, List.getElem?_map]
    cases query.header.declaredSpans[index]? <;> rfl
  | optionalModifier =>
    simp only [span, Query.shift, Header.relocate]
    cases query.header.optionalSpan <;> rfl

theorem Finding.report_shift (query : Query) (offset : Nat) {finding : Finding}
    (within : finding.Within query.statement) :
    finding.report (query.shift offset) (query.shift offset).read =
      (finding.report query query.read).shift offset := by
  have excerpt : ∀ span, (query.shift offset).read.slice (span.shift offset) =
      query.read.slice span := fun span => Body.slice_shift offset span _ _
  have related : ∀ message place, finding.cause.related? = some (message, place) →
      place.span (query.shift offset) (query.shift offset).read =
        (place.span query query.read).shift offset := fun message place refers =>
    Place.span_shift query offset (within.related message place refers)
  unfold report
  rw [Place.span_shift query offset within.place]
  dsimp only
  rw [excerpt]
  cases refers : finding.cause.related? with
  | none => rfl
  | some other =>
    simp only [Option.toList_some, List.map_cons, List.map_nil, related other.1 other.2 refers]
    rfl

end AnnotatedSql
