import AnnotatedSql.Proofs.Checked.Module
import AnnotatedSql.Proofs.Query.Comments

/-!
# Layout

Blanks, line ends and comments separate tokens and say nothing. Two queries with the same header and
the same significant tokens resolve alike, and two headers with the same significant tokens say the
same or are faulty in the same way. Only places differ, and the texts that messages quote. This holds
as well where a token is known by its kind and its span, and its text is read from the body under the
span each time that a step looks at it.
-/

namespace AnnotatedSql

/-! ## Headers -/

/-- The kind of a report on a fault does not depend on where the fault is. -/
theorem HeaderFault.report_kind (send : Nat → Nat) (fault : HeaderFault) (source other : Nat)
    (block place : Block) :
    ((fault.relocate send).report source block).kind = (fault.report other place).kind := by
  cases fault <;> rfl

/-- Tokens with the same lexemes differ in their places only, so they are the same once all of them
are sent to one place. -/
theorem relocate_eq {tokens others : List Token}
    (same : others.map (·.toLexeme) = tokens.map (·.toLexeme)) :
    others.map (Token.relocate fun _ => 0) = tokens.map (Token.relocate fun _ => 0) := by
  have placed : Token.relocate (fun _ => 0) =
      (fun lexeme => ⟨lexeme, ⟨0, 0⟩⟩) ∘ fun token : Token => token.toLexeme := rfl
  rw [placed, ← List.map_map, same, List.map_map]

/-- What a header says, or the kind of its fault, does not change where its tokens are sent. -/
theorem Header.ofTokens_sent (send : Nat → Nat) (suffix : String) (tokens : List Token)
    (source other : Nat) (block place : Block) :
    mapBoth (fun fault => (HeaderFault.report source block fault).kind) Header.descriptor
        (ofTokens suffix (tokens.map (Token.relocate send))) =
      mapBoth (fun fault => (HeaderFault.report other place fault).kind) Header.descriptor
        (ofTokens suffix tokens) := by
  rw [ofTokens_relocate]
  cases ofTokens suffix tokens with
  | error fault => exact congrArg Except.error (fault.report_kind send source other block place)
  | ok header => rfl

theorem Header.ofTokens_layout (suffix : String) {block other : Block} (source place : Nat)
    (same : other.headerTokens.map (·.toLexeme) = block.headerTokens.map (·.toLexeme)) :
    mapBoth (fun fault => (HeaderFault.report place other fault).kind) Header.descriptor
        (ofTokens suffix other.headerTokens) =
      mapBoth (fun fault => (HeaderFault.report source block fault).kind) Header.descriptor
        (ofTokens suffix block.headerTokens) := by
  rw [← ofTokens_sent (fun _ => 0) suffix other.headerTokens source place block other,
    relocate_eq same, ofTokens_sent _ suffix block.headerTokens source source block block]

/-! ## Queries -/

namespace Query

variable {query other : Query}

theorem statement_layout
    (same : other.read.tokens.map (·.toLexeme) = query.read.tokens.map (·.toLexeme)) :
    other.statement = query.statement := by
  unfold statement Body.statement
  rw [← Array.toList_map, ← Array.toList_map, same]

/-- Two queries with one analysis differ in themselves and in the places of the reports on them. -/
theorem outcome_alike (query other : Query) (resolved : Analyzed Resolution) :
    (resolved.value.map (⟨other, ·⟩)).map ResolvedQuery.resolution =
        (resolved.value.map (⟨query, ·⟩)).map ResolvedQuery.resolution ∧
      (other.reports resolved.findings).map Report.kind =
        (query.reports resolved.findings).map Report.kind := by
  rw [reports_kinds, reports_kinds, Option.map_map, Option.map_map]
  exact ⟨rfl, rfl⟩

/-- What a query resolves to, and the kinds of the reports on it, depend on its header and on its
significant tokens only. -/
theorem resolve_of_statement (schema : Schema) (descriptor : other.descriptor = query.descriptor)
    (statement : other.statement = query.statement) :
    (other.resolve schema).1.map ResolvedQuery.resolution =
        (query.resolve schema).1.map ResolvedQuery.resolution ∧
      (other.resolve schema).2.map Report.kind = (query.resolve schema).2.map Report.kind := by
  unfold resolve
  rw [descriptor, statement]
  apply outcome_alike

end Query

/-! ## Texts under spans -/

theorem Statement.lexemes_ext {s t : Statement} (kinds : ∀ i, t.kind? i = s.kind? i)
    (texts : ∀ i, t.text i = s.text i) : t.lexemes = s.lexemes := by
  apply Array.ext_getElem?
  intro i
  have kind := kinds i
  have text := texts i
  unfold kind? at kind
  unfold Statement.text at text
  cases ours : s.lexemes[i]? with
  | none =>
    rw [ours] at kind
    exact Option.map_eq_none_iff.mp kind
  | some lexeme =>
    rw [ours] at kind text
    obtain ⟨found, theirs, sameKind⟩ := Option.map_eq_some_iff.mp kind
    rw [theirs] at text ⊢
    cases found
    cases lexeme
    cases sameKind
    cases text
    rfl

namespace Body

/-- The kind of token `i`. -/
def kindAt? (body : Body) (i : Nat) : Option TokenKind := body.tokens[i]?.map (·.kind)

/-- The text under the span of token `i`, empty past the end. -/
def textAt (body : Body) (i : Nat) : String :=
  (body.tokens[i]?.map fun token => String.ofList (body.slice token.span)).getD ""

/-- The statement in the body whose tokens are known by their kinds and spans. Each is spelled as the
text under its span. -/
def sliced (body : Body) : Statement :=
  .ofLexemes (body.tokens.toList.map fun token =>
    ⟨token.kind, String.ofList (body.slice token.span)⟩)

variable {body other : Body}

theorem sliced_lexeme (i : Nat) : body.sliced.lexemes[i]? =
    body.tokens[i]?.map fun token => ⟨token.kind, String.ofList (body.slice token.span)⟩ := by
  simp [sliced, Statement.ofLexemes]

/-- What a step of an analysis reads of a token is its kind and the text under its span. -/
theorem sliced_kind (i : Nat) : body.sliced.kind? i = body.kindAt? i := by
  unfold Statement.kind? kindAt?
  rw [sliced_lexeme, Option.map_map]
  rfl

theorem sliced_text (i : Nat) : body.sliced.text i = body.textAt i := by
  unfold Statement.text textAt
  rw [sliced_lexeme, Option.map_map]
  rfl

/-- Bodies with the same kinds of tokens and the same texts under their spans have one statement. -/
theorem sliced_congr (kinds : ∀ i, other.kindAt? i = body.kindAt? i)
    (texts : ∀ i, other.textAt i = body.textAt i) : other.sliced = body.sliced := by
  have same : other.sliced.lexemes = body.sliced.lexemes := by
    apply Statement.lexemes_ext
    · intro i
      rw [sliced_kind, sliced_kind, kinds]
    · intro i
      rw [sliced_text, sliced_text, texts]
  exact congrArg (fun lexemes => Statement.ofLexemes lexemes.toList) same

/-- Every token that a text is cut into is spelled as the text under its span. -/
theorem sliced_read (base : Nat) (text : List Char) :
    (read base text).sliced = (read base text).statement := by
  have spelled : ∀ token ∈ significantAt base text,
      (⟨token.kind, String.ofList ((read base text).slice token.span)⟩ : Lexeme) =
        token.toLexeme := by
    intro token member
    have under : (read base text).slice token.span = token.text.toList :=
      (significantAt_holds member).slice
    rw [under, String.ofList_toList]
  unfold sliced statement
  exact congrArg Statement.ofLexemes (List.map_congr_left spelled)

/-- Reading the text of a token from the body meets no trap. -/
theorem slice_token {base : Nat} {text : List Char} {i : Nat} {token : Token}
    (listed : (read base text).tokens[i]? = some token) :
    Checked.slice base text token.span = pure ((read base text).textAt i).toList := by
  have member : token ∈ significantAt base text := by
    simpa [read] using Array.mem_of_getElem? listed
  have holds := significantAt_holds member
  have spelled : (read base text).textAt i = String.ofList (token.span.slice base text) := by
    rw [textAt, listed]
    rfl
  rw [Checked.slice_holds holds, spelled, holds.slice, String.toList_ofList]

end Body

namespace Query

variable {query other : Query}

/-- Resolves a query whose tokens are known by their kinds and spans. -/
def resolveSliced (schema : Schema) (query : Query) : Option ResolvedQuery × List Report :=
  let resolved := AnnotatedSql.resolve schema query.descriptor.bindingStyle query.read.sliced
  (resolved.value.map (⟨query, ·⟩), query.reports resolved.findings)

theorem resolveSliced_eq (schema : Schema) :
    query.resolveSliced schema = query.resolve schema := by
  unfold resolveSliced resolve statement
  rw [read, Body.sliced_read]

/-- What such a query resolves to depends on its header, and on the kinds of its tokens and the texts
under their spans. -/
theorem resolveSliced_layout (schema : Schema) (descriptor : other.descriptor = query.descriptor)
    (kinds : ∀ i, other.read.kindAt? i = query.read.kindAt? i)
    (texts : ∀ i, other.read.textAt i = query.read.textAt i) :
    (other.resolveSliced schema).1.map ResolvedQuery.resolution =
        (query.resolveSliced schema).1.map ResolvedQuery.resolution ∧
      (other.resolveSliced schema).2.map Report.kind =
        (query.resolveSliced schema).2.map Report.kind := by
  unfold resolveSliced
  rw [descriptor, Body.sliced_congr kinds texts]
  apply outcome_alike

end Query

/-- Layout does not matter: neither to what a query resolves to, with all its parameters, columns and
kinds of reports, nor to what a header says or to the kind of its fault. The same holds of the program
that knows a token of the body by its kind and its span: its steps read the text of a token from the
body under the span, which meets no trap, and on the queries of a module it gives what the checked
program gives. -/
theorem layout_irrelevant (schema : Schema) (suffix : String) :
    (∀ query other : Query, other.descriptor = query.descriptor →
      other.read.tokens.map (·.toLexeme) = query.read.tokens.map (·.toLexeme) →
        (other.resolve schema).1.map ResolvedQuery.resolution =
            (query.resolve schema).1.map ResolvedQuery.resolution ∧
          (other.resolve schema).2.map Report.kind = (query.resolve schema).2.map Report.kind) ∧
    (∀ query other : Query, other.descriptor = query.descriptor →
      (∀ i, other.read.kindAt? i = query.read.kindAt? i) →
      (∀ i, other.read.textAt i = query.read.textAt i) →
        (other.resolveSliced schema).1.map ResolvedQuery.resolution =
            (query.resolveSliced schema).1.map ResolvedQuery.resolution ∧
          (other.resolveSliced schema).2.map Report.kind =
            (query.resolveSliced schema).2.map Report.kind) ∧
    (∀ (body : Body) (i : Nat),
      body.sliced.kind? i = body.kindAt? i ∧ body.sliced.text i = body.textAt i) ∧
    (∀ (index : Nat) (text : List Char), Compact text →
      ∀ query ∈ (parseModule index suffix text).queries,
        Checked.resolveQuery schema query = pure (query.resolveSliced schema) ∧
          ∀ i token, query.read.tokens[i]? = some token →
            Checked.slice query.read.base query.read.text token.span =
              pure (query.read.textAt i).toList) ∧
    ∀ (source place : Nat) (block other : Block),
      other.headerTokens.map (·.toLexeme) = block.headerTokens.map (·.toLexeme) →
        mapBoth (fun fault => (HeaderFault.report place other fault).kind) Header.descriptor
            (Header.ofTokens suffix other.headerTokens) =
          mapBoth (fun fault => (HeaderFault.report source block fault).kind) Header.descriptor
            (Header.ofTokens suffix block.headerTokens) := by
  refine ⟨fun query other descriptor same => ?_, fun query other descriptor kinds texts => ?_,
    fun body i => ⟨Body.sliced_kind i, Body.sliced_text i⟩, fun index text compact query declared => ?_,
    fun source place block other same => ?_⟩
  · exact Query.resolve_of_statement schema descriptor (Query.statement_layout same)
  · exact Query.resolveSliced_layout schema descriptor kinds texts
  · constructor
    · rw [Query.resolveSliced_eq]
      exact Checked.resolveQuery_parsed compact declared
    · intro i token listed
      exact Body.slice_token listed
  · exact Header.ofTokens_layout suffix source place same

/-- A query on two lines with a comment, and on one, each in a module of its own; and a header with
blanks, whose list is not closed. -/
theorem layout_irrelevant_on_one_line :
    let schema : Schema := {}
    let header : Header := ⟨⟨"q", .implicit, .many, false⟩, ⟨4, 5⟩, [], none⟩
    let query : Query :=
      ⟨0, header, ⟨3, 5⟩, "select -- :x\n :y :: int4".toList, ⟨6, 30⟩⟩
    let other : Query := ⟨0, header, ⟨3, 5⟩, "select:y::int4".toList, ⟨6, 20⟩⟩
    let text := "--! q\nselect -- :x\n :y :: int4".toList
    let whole := "--! q\nselect:y::int4".toList
    let block : Block := ⟨0, "--! q ( a ,\n".toList, []⟩
    let joined : Block := ⟨0, "--!q(a,\n".toList, []⟩
    other.read.tokens.map (·.toLexeme) = query.read.tokens.map (·.toLexeme) ∧
      (query.resolve schema).1.map (·.columns.map ResultColumn.name) = some ["y"] ∧
      (other.resolve schema).1.map ResolvedQuery.resolution =
        (query.resolve schema).1.map ResolvedQuery.resolution ∧
      (other.resolve schema).2.map Report.kind = (query.resolve schema).2.map Report.kind ∧
      (query.read.tokens.map (·.span), other.read.tokens.map (·.span)) =
        (#[⟨6, 12⟩, ⟨20, 22⟩, ⟨23, 25⟩, ⟨26, 30⟩], #[⟨6, 12⟩, ⟨12, 14⟩, ⟨14, 16⟩, ⟨16, 20⟩]) ∧
      (query.read.textAt 1, other.read.textAt 1) = (":y", ":y") ∧
      (∀ i, other.read.kindAt? i = query.read.kindAt? i) ∧
      (∀ i, other.read.textAt i = query.read.textAt i) ∧
      (other.resolveSliced schema).1.map ResolvedQuery.resolution =
        (query.resolveSliced schema).1.map ResolvedQuery.resolution ∧
      (other.resolveSliced schema).2.map Report.kind =
        (query.resolveSliced schema).2.map Report.kind ∧
      Checked.resolveQuery schema query = pure (query.resolveSliced schema) ∧
      Checked.resolveQuery schema other = pure (other.resolveSliced schema) ∧
      (parseModule 0 "" text).queries = [query] ∧ (parseModule 0 "" whole).queries = [other] ∧
      joined.headerTokens.map (·.toLexeme) = block.headerTokens.map (·.toLexeme) ∧
      mapBoth (fun fault => (HeaderFault.report 0 joined fault).kind) Header.descriptor
          (Header.ofTokens "" joined.headerTokens) =
        mapBoth (fun fault => (HeaderFault.report 0 block fault).kind) Header.descriptor
          (Header.ofTokens "" block.headerTokens) := by
  intro schema header query other text whole block joined
  have tokens : other.read.tokens.map (·.toLexeme) = query.read.tokens.map (·.toLexeme) := by
    decide +kernel
  have names : joined.headerTokens.map (·.toLexeme) = block.headerTokens.map (·.toLexeme) := by
    decide +kernel
  have columns : (query.resolve schema).1.map (·.columns.map ResultColumn.name) = some ["y"] := by
    decide +kernel
  have sliced : other.read.sliced = query.read.sliced := by
    rw [Query.read, Query.read, Body.sliced_read, Body.sliced_read]
    exact Query.statement_layout tokens
  obtain ⟨resolved, alike, reads, untrapped, headers⟩ := layout_irrelevant schema ""
  have kinds : ∀ i, other.read.kindAt? i = query.read.kindAt? i := by
    intro i
    rw [← (reads other.read i).1, ← (reads query.read i).1, sliced]
  have texts : ∀ i, other.read.textAt i = query.read.textAt i := by
    intro i
    rw [← (reads other.read i).2, ← (reads query.read i).2, sliced]
  have compact : Compact text := ⟨by decide +kernel, by unfold Followable; decide +kernel⟩
  have compactWhole : Compact whole := ⟨by decide +kernel, by unfold Followable; decide +kernel⟩
  have declared : (parseModule 0 "" text).queries = [query] := by decide +kernel
  have declaredWhole : (parseModule 0 "" whole).queries = [other] := by decide +kernel
  have same := resolved query other rfl tokens
  have bySpans := alike query other rfl kinds texts
  have run := untrapped 0 text compact query (declared ▸ List.mem_singleton.mpr rfl)
  have runWhole := untrapped 0 whole compactWhole other (declaredWhole ▸ List.mem_singleton.mpr rfl)
  exact ⟨tokens, columns, same.1, same.2, by decide +kernel, by decide +kernel, kinds, texts,
    bySpans.1, bySpans.2, run.1, runWhole.1, declared, declaredWhole, names,
    headers 0 0 block joined names⟩

end AnnotatedSql
