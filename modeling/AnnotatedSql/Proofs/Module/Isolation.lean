import AnnotatedSql.Proofs.Projection.Typed
import AnnotatedSql.Proofs.Query.Shift

/-!
# Blocks are isolated

Reading a module is reading its blocks one by one. Where a text that begins with a header line
follows complete lines, the queries and reports of the two follow one another; those of the second
only stand later, and its queries resolve as they do alone.
-/

namespace AnnotatedSql

namespace ParsedModule

/-- The readings of two texts, one after the other. -/
def append (first second : ParsedModule) : ParsedModule :=
  ⟨first.queries ++ second.queries, first.reports ++ second.reports⟩

/-- The reading of a text that begins `offset` bytes later. -/
def shift (offset : Nat) (parsed : ParsedModule) : ParsedModule :=
  ⟨parsed.queries.map (Query.shift offset), parsed.reports.map (Report.shift offset)⟩

end ParsedModule

/-- The resolution of a query that begins `offset` bytes later. -/
def ResolvedQuery.shift (offset : Nat) (resolved : ResolvedQuery) : ResolvedQuery :=
  ⟨resolved.query.shift offset, resolved.resolution⟩

namespace Parameter

/-- Where the placeholders of a parameter stand. -/
def occurrenceSpans (body : Body) (p : Parameter) : List Span := p.occurrences.map body.spanAt

/-- Where the type of the first cast of a parameter stands. -/
def hintSpan? (body : Body) (p : Parameter) : Option Span :=
  p.hint.map fun hint => body.spanOf hint.lo hint.hi

end Parameter

/-- Every parameter in the table has its placeholders and its cast in the statement. -/
theorem Binding.table_within {style : BindingStyle} {s : Statement} (paired : s.Paired)
    {p : Parameter} (member : p ∈ table style s) :
    (∀ i ∈ p.occurrences, i < s.size) ∧ ∀ hint, p.hint = some hint → hint.place.Within s := by
  obtain ⟨⟨key, index⟩, _, rfl⟩ := List.mem_map.mp member
  refine ⟨fun i occurs => ?_, fun hint found => paired.hint_within found⟩
  exact Statement.lt_size_of_paramKey (Statement.mem_occurrences.mp occurs)

/-- The parameter of an accepted statement has its placeholders and its cast in the statement. -/
theorem resolve_parameter_within {schema : Schema} {style : BindingStyle} {s : Statement}
    (paired : s.Paired) {resolution : Resolution}
    (resolves : (resolve schema style s).value = some resolution) {p : Parameter}
    (member : p ∈ resolution.parameters) :
    (∀ i ∈ p.occurrences, i < s.size) ∧ ∀ hint, p.hint = some hint → hint.place.Within s := by
  obtain ⟨_, scope, _, inScope⟩ := resolve_success resolves
  obtain ⟨_, parameters, _⟩ := resolveIn_success inScope
  rw [parameters] at member
  obtain ⟨bare, inTable, type, rfl⟩ := mem_typeParameters member
  obtain ⟨occurs, cast⟩ := Binding.table_within paired inTable
  exact ⟨occurs, cast⟩

namespace Query

/-- A query that begins later resolves to the same, with the same reports later. -/
theorem resolve_shift (schema : Schema) (offset : Nat) (query : Query) :
    (query.shift offset).resolve schema =
      ((query.resolve schema).1.map (ResolvedQuery.shift offset),
        (query.resolve schema).2.map (Report.shift offset)) := by
  unfold resolve
  rw [shift_statement, shift_descriptor, Option.map_map]
  refine Prod.ext rfl ?_
  simp only [reports, List.map_map]
  refine List.map_congr_left fun finding member => ?_
  exact Finding.report_shift query offset (resolve_within query.statement_paired member)

/-- The placeholders and the casts of its parameters stand later too. -/
theorem spans_shift {schema : Schema} {query : Query} {resolved : ResolvedQuery}
    (resolves : (query.resolve schema).1 = some resolved) (offset : Nat) {p : Parameter}
    (member : p ∈ resolved.parameters) :
    p.occurrenceSpans (query.shift offset).read =
        (p.occurrenceSpans query.read).map (·.shift offset) ∧
      p.hintSpan? (query.shift offset).read = (p.hintSpan? query.read).map (·.shift offset) := by
  obtain ⟨_, found⟩ := resolve_eq_some_iff.mp resolves
  have within := resolve_parameter_within query.statement_paired found member
  constructor
  · rw [Parameter.occurrenceSpans, Parameter.occurrenceSpans, List.map_map]
    exact List.map_congr_left fun i occurs => Body.spanAt_shift offset (within.1 i occurs)
  · cases cast : p.hint with
    | none => simp [Parameter.hintSpan?, cast]
    | some hint =>
      obtain ⟨begins, ends⟩ := within.2 hint cast
      rw [Parameter.hintSpan?, Parameter.hintSpan?, cast]
      exact congrArg some (Body.spanOf_shift offset begins ends)

end Query

theorem strayReports_nil (source : Nat) : strayReports source [] = [] := rfl

/-- Reading complete lines and then a text that begins with a header line. -/
theorem parseModule_append (source : Nat) (suffix : String) {a b : List Char} (ends : EndsLine a)
    (starts : StartsBlock b) :
    parseModule source suffix (a ++ b) =
      (parseModule source suffix a).append
        ((parseModule source suffix b).shift (byteLength a)) := by
  have outcomes : ∀ blocks : List Block,
      (blocks.map (Block.shift (byteLength a))).map (Query.ofBlock source suffix) =
        (blocks.map (Query.ofBlock source suffix)).map
          (mapBoth (Report.shift (byteLength a)) (Query.shift (byteLength a))) := fun blocks => by
    rw [List.map_map, List.map_map]
    exact List.map_congr_left fun block _ => Query.ofBlock_shift source suffix (byteLength a) block
  unfold parseModule
  rw [Layout.ofText_append ends starts]
  simp only [List.map_append, List.filterMap_append, outcomes, Layout.ofText_preamble starts,
    strayReports_nil, List.filterMap_map, ParsedModule.append, ParsedModule.shift,
    List.map_filterMap, List.nil_append, List.append_assoc]
  congr 2
  · refine List.filterMap_congr fun block _ => ?_
    simp only [Function.comp_apply]
    cases Query.ofBlock source suffix block <;> rfl
  · refine congrArg _ (List.filterMap_congr fun block _ => ?_)
    simp only [Function.comp_apply]
    cases Query.ofBlock source suffix block <;> rfl

theorem StartsBlock.ne_nil {text : List Char} (starts : StartsBlock text) : text ≠ [] := by
  rintro rfl
  obtain ⟨line, rest, impossible, _⟩ := starts
  cases impossible

/-- Blocks are isolated. A text that begins with a header line adds its queries and reports, later
by the length of the complete lines before it; a query that begins later resolves to the same, its
reports and the places of its parameters later; so what stands before a text and after it comes out
the same whatever the text is, but for how much later the latter stands. -/
theorem parseModule_isolated (source : Nat) (suffix : String) {a b : List Char} (ends : EndsLine a)
    (starts : StartsBlock b) :
    parseModule source suffix (a ++ b) =
        (parseModule source suffix a).append ((parseModule source suffix b).shift (byteLength a)) ∧
      (∀ schema offset query,
        (Query.shift offset query).resolve schema =
            ((query.resolve schema).1.map (ResolvedQuery.shift offset),
              (query.resolve schema).2.map (Report.shift offset)) ∧
          ∀ resolved, (query.resolve schema).1 = some resolved → ∀ p ∈ resolved.parameters,
            p.occurrenceSpans (query.shift offset).read =
                (p.occurrenceSpans query.read).map (·.shift offset) ∧
              p.hintSpan? (query.shift offset).read =
                (p.hintSpan? query.read).map (·.shift offset)) ∧
      ∀ c, EndsLine b → StartsBlock c →
        parseModule source suffix (a ++ b ++ c) =
          ((parseModule source suffix a).append
            ((parseModule source suffix b).shift (byteLength a))).append
              ((parseModule source suffix c).shift (byteLength a + byteLength b)) := by
  have joined := parseModule_append source suffix ends starts
  refine ⟨joined, fun schema offset query => ⟨Query.resolve_shift schema offset query, ?_⟩, ?_⟩
  · intro resolved resolves p member
    exact Query.spans_shift resolves offset member
  · intro c complete follows
    rw [parseModule_append source suffix (complete.append starts.ne_nil) follows, joined,
      byteLength_append]

/-- Three blocks of fifteen bytes each. -/
theorem parseModule_isolated_three :
    let a := "--!p\nselect 1;\n".toList
    let b := "--!q\nselect 2;\n".toList
    let c := "--!r\nselect 3;\n".toList
    EndsLine a ∧ EndsLine b ∧ StartsBlock b ∧ StartsBlock c ∧
      parseModule 0 "" (a ++ b ++ c) =
        ((parseModule 0 "" a).append ((parseModule 0 "" b).shift 15)).append
          ((parseModule 0 "" c).shift 30) ∧
      (parseModule 0 "" c).queries.map Query.nameSpan = [⟨3, 4⟩] := by
  intro a b c
  have aEnds : EndsLine a := Or.inr (by decide)
  have bEnds : EndsLine b := Or.inr (by decide)
  have bStarts : StartsBlock b := ⟨_, _, rfl, by decide⟩
  have cStarts : StartsBlock c := ⟨_, _, rfl, by decide⟩
  refine ⟨aEnds, bEnds, bStarts, cStarts, ?_, by decide +kernel⟩
  exact (parseModule_isolated 0 "" aEnds bStarts).2.2 c bEnds cStarts

end AnnotatedSql
