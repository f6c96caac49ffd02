import AnnotatedSql.Proofs.Checked.Block
import AnnotatedSql.Proofs.Checked.Token
import AnnotatedSql.Proofs.Header.Spans
import AnnotatedSql.Proofs.Resolution.Placement

/-!
# Reports and records without a trap

A finding is reported at the span of its tokens, which are read by index, and the text under that
span is cut out of the body where the message quotes it. A record counts the lines before a report,
and the characters before it on its line. All of this is safe where the places of the findings lie
among the tokens, and the reports are made of pieces of their source.
-/

namespace AnnotatedSql

/-! ## Spans of places -/

namespace Checked

/-- The span of a place. -/
def spanOf (query : Query) (body : Body) : Place → Checked Span
  | .tokens lo hi => do
    let first ← get body.tokens.toList lo
    let index ← sub (max hi (lo + 1)) 1
    let last ← get body.tokens.toList index
    pure (first.span.cover last.span)
  | .declaration index => pure ((Place.declaration index).span query body)
  | .optionalModifier => pure (Place.optionalModifier.span query body)

/-- The text that a message quotes from under the span of its finding. -/
def excerpt (body : Body) (span : Span) : Cause → Checked (List Char)
  | .untypedExpression => slice body.base body.text span
  | _ => pure []

/-- The finding as a report on its query. -/
def report (query : Query) (body : Body) (finding : Finding) : Checked Report := do
  let span ← spanOf query body finding.place
  let excerpt ← excerpt body span finding.cause
  let related ← finding.cause.related?.toList.mapM fun (message, place) => do
    let span ← spanOf query body place
    pure (⟨message, query.source, span⟩ : Related)
  pure (.detailed finding.kind query.source span
    (finding.cause.detail (String.ofList excerpt)) related)

end Checked

theorem Body.size_read (base : Nat) (text : List Char) :
    (Body.read base text).statement.size = (significantAt base text).length := by
  simp [Body.read, Body.statement, Statement.ofLexemes, Statement.size]

section

variable {base : Nat} {text : List Char}

theorem Body.get_token {i : Nat} (inside : i < (Body.read base text).statement.size) :
    ∃ token ∈ significantAt base text,
      Checked.get (Body.read base text).tokens.toList i = pure token ∧
        (Body.read base text).spanAt i = token.span := by
  rw [Body.size_read] at inside
  refine ⟨(significantAt base text)[i], List.getElem_mem inside, ?_, ?_⟩
  · exact Checked.get_eq (List.getElem?_eq_getElem inside)
  · simp [Body.spanAt, Body.read, inside]

/-- A token of a body cuts it. -/
theorem Body.spanAt_cuts {i : Nat} (inside : i < (Body.read base text).statement.size) :
    ((Body.read base text).spanAt i).Cuts base text := by
  obtain ⟨token, member, _, here⟩ := Body.get_token inside
  rw [here]
  exact (significantAt_holds member).cuts

/-- Tokens of a body that are read by index cover a piece of it. -/
theorem Checked.spanOf_tokens (query : Query) {lo hi : Nat}
    (begins : lo < (Body.read base text).statement.size)
    (ends : hi ≤ (Body.read base text).statement.size) :
    Checked.spanOf query (.read base text) (.tokens lo hi) =
        pure ((Body.read base text).spanOf lo hi) ∧
      ((Body.read base text).spanOf lo hi).Cuts base text := by
  have inside : max hi (lo + 1) - 1 < (Body.read base text).statement.size := by omega
  obtain ⟨first, _, readFirst, firstHere⟩ := Body.get_token begins
  obtain ⟨last, _, readLast, lastHere⟩ := Body.get_token inside
  refine ⟨?_, (Body.spanAt_cuts begins).cover (Body.spanAt_cuts inside)⟩
  unfold Checked.spanOf Body.spanOf
  dsimp only
  rw [readFirst, pure_bind, Checked.sub_eq (by omega), pure_bind, readLast, pure_bind, firstHere,
    lastHere]

end

/-! ## Reports -/

/-- The report is on the source with the given index, and its spans are pieces of that source. -/
structure Report.Placed (index : Nat) (text : List Char) (report : Report) : Prop where
  source : report.source = index
  span : report.span.Cuts 0 text
  related : ∀ other ∈ report.related, other.source = index ∧ other.span.Cuts 0 text

/-- The query is one of the source with the given index, and all its parts are pieces of it. -/
structure Query.Placed (index : Nat) (text : List Char) (query : Query) : Prop where
  source : query.source = index
  header : query.header.All (Span.Cuts 0 text)
  headerSpan : query.headerSpan.Cuts 0 text
  body : query.bodySpan.Holds 0 text query.body

/-- What a message quotes is cut out of the body. -/
theorem Checked.excerpt_eq {query : Query} {finding : Finding}
    (within : finding.Within query.statement) :
    ∃ quoted, Checked.excerpt query.read (finding.place.span query query.read) finding.cause =
        pure quoted ∧
      finding.cause.detail (String.ofList quoted) = finding.cause.detail
        (String.ofList (query.read.slice (finding.place.span query query.read))) := by
  obtain ⟨cause, place⟩ := finding
  cases cause with
  | untypedExpression =>
    obtain ⟨lo, hi, rfl⟩ := within.quoted rfl
    obtain ⟨_, cuts⟩ := Checked.spanOf_tokens query within.place.1 within.place.2
    exact ⟨_, Checked.slice_eq cuts, rfl⟩
  | _ => exact ⟨[], rfl, rfl⟩

namespace Query.Placed

variable {index : Nat} {text : List Char} {query : Query} (placed : query.Placed index text)

include placed

/-- What is a piece of the body is one of the whole text. -/
theorem widen {span : Span} (cuts : span.Cuts query.bodySpan.start query.body) :
    span.Cuts 0 text := by
  obtain ⟨before, after, rfl, here⟩ := placed.body
  rw [here] at cuts
  exact cuts.within

/-- A place among the tokens of the body is found without a trap and is a piece of the text. -/
theorem spanOf_eq {place : Place} (within : place.Within query.statement) :
    Checked.spanOf query query.read place = pure (place.span query query.read) ∧
      (place.span query query.read).Cuts 0 text := by
  cases place with
  | tokens lo hi =>
    obtain ⟨found, cuts⟩ := Checked.spanOf_tokens query within.1 within.2
    exact ⟨found, placed.widen cuts⟩
  | declaration index =>
    refine ⟨rfl, ?_⟩
    change (query.header.declaredSpans[index]?.getD query.nameSpan).Cuts 0 text
    cases found : query.header.declaredSpans[index]? with
    | none => exact placed.header.name
    | some span => exact placed.header.declared span (List.mem_of_getElem? found)
  | optionalModifier =>
    refine ⟨rfl, ?_⟩
    change (query.header.optionalSpan.getD query.nameSpan).Cuts 0 text
    cases found : query.header.optionalSpan with
    | none => exact placed.header.name
    | some span => exact placed.header.optional span found

/-- A finding is reported without a trap, and all the places in its report are pieces of the
source. -/
theorem report_eq {finding : Finding} (within : finding.Within query.statement) :
    Checked.report query query.read finding = pure (finding.report query query.read) ∧
      (finding.report query query.read).Placed index text := by
  obtain ⟨found, cuts⟩ := placed.spanOf_eq within.place
  obtain ⟨quoted, read, same⟩ := Checked.excerpt_eq within
  have others : ∀ item ∈ finding.cause.related?.toList, item.2.Within query.statement :=
    fun item member => within.related _ _ (Option.mem_toList.mp member)
  constructor
  · unfold Checked.report
    rw [found, pure_bind, read, pure_bind, Checked.mapM_eq (f := fun item =>
      ⟨item.1, query.source, item.2.span query query.read⟩), pure_bind, same]
    · rfl
    · intro item member
      obtain ⟨foundOther, _⟩ := placed.spanOf_eq (others item member)
      dsimp only
      rw [foundOther, pure_bind]
  · refine ⟨placed.source, cuts, fun other member => ?_⟩
    obtain ⟨item, listed, rfl⟩ := List.mem_map.mp member
    exact ⟨placed.source, (placed.spanOf_eq (others item listed)).2⟩

end Query.Placed

/-! ## Records -/

namespace Checked

/-- The position of a byte offset. The line begins after the last line feed before the offset. -/
def position (text : List Char) (offset : Nat) : Checked Position := do
  let offset := min offset (byteLength text)
  let before ← cut text 0 offset
  let start := byteLength (before.reverse.dropWhile (· != '\n')).reverse
  let line ← cut before start (byteLength before)
  pure ⟨before.count '\n' + 1, line.length + 1⟩

/-- The record of a report on one of the sources. -/
def record (sources : List Source) (report : Report) : Checked Record := do
  let source ← get sources report.source
  let position ← position source.text.toList report.span.start
  pure {
    moduleName := source.origin.moduleName
    line := position.line
    column := position.column
    kind := report.kind.name
    severity := report.severity.name
    message := report.message }

end Checked

end AnnotatedSql
