import AnnotatedSql.Proofs.Checked.Binding
import AnnotatedSql.Proofs.Checked.Header
import AnnotatedSql.Proofs.Checked.Projection
import AnnotatedSql.Proofs.Checked.Report
import AnnotatedSql.Proofs.Checked.Rewriting
import AnnotatedSql.Proofs.Module.Isolation
import AnnotatedSql.Resolution

/-!
# Queries without a trap

A block is read as a query, and the query is bound, rewritten and resolved, all with operations that
may be bad. Blocks are pieces of their text, and so are the parts of a query and the places of all
that is reported on it. The numbers of a query fit in 32 bits where its text is short and no
placeholder has the greatest position.
-/

namespace AnnotatedSql

/-! ## Resolution stage by stage

Binding, typing and projecting a statement one after another. Each parameter of a bound statement
occurs in it, so that the first occurrence of any of them exists. -/

namespace Checked

/-- Resolves a statement whose parameters are bound in the given scope. -/
def resolveIn (schema : Schema) (s : Statement) (parameters : List Parameter) (scope : Scope) :
    Checked (Analyzed Resolution) := do
  let (typed, typing) ← typeParameters schema s scope parameters
  let projected ← project ⟨schema, s, scope, typed⟩
  let findings := typing ++ projected.findings
  pure ⟨if Findings.hasErrors findings then none
    else projected.value.map fun result => ⟨typed, result⟩, findings⟩

/-- Resolves a statement, given what binding it gave. -/
def resolveBound (schema : Schema) (s : Statement) (bound : Analyzed (List Parameter)) :
    Checked (Analyzed Resolution) :=
  match bound.value with
  | none => pure ⟨none, bound.findings⟩
  | some parameters => do
    match ← scope schema s with
    | .error finding => pure ⟨none, bound.findings ++ [finding]⟩
    | .ok scope => do
      let resolved ← resolveIn schema s parameters scope
      pure ⟨resolved.value, bound.findings ++ resolved.findings⟩

section Resolving

variable {schema : Schema} {style : BindingStyle} {s : Statement}

/-- Every parameter of an accepted statement occurs in it. -/
theorem occurs_of_table (accepts : Binding.Accepts style s) {parameter : Parameter}
    (member : parameter ∈ Binding.table style s) : parameter.occurrences ≠ [] := by
  obtain ⟨⟨key, index⟩, listed, rfl⟩ := List.mem_map.mp member
  have ordered : key ∈ Binding.orderedKeys style s :=
    (List.mem_zipIdx' listed).2 ▸ List.getElem_mem _
  obtain ⟨i, found⟩ := Statement.mem_keys.mp (accepts.mem_orderedKeys.mp ordered)
  exact List.ne_nil_of_mem (Statement.mem_occurrences.mpr found)

theorem resolveIn_eq (paired : s.Paired) {parameters : List Parameter} {scope : Scope}
    (occur : ∀ p ∈ parameters, p.occurrences ≠ []) :
    resolveIn schema s parameters scope =
      pure (AnnotatedSql.resolveIn schema s parameters scope) := by
  unfold resolveIn AnnotatedSql.resolveIn
  rw [typeParameters_eq paired occur, pure_bind]
  dsimp only
  rw [project_eq paired, pure_bind]

/-- Resolving meets no trap. -/
theorem resolveBound_eq (paired : s.Paired) :
    resolveBound schema s (AnnotatedSql.bind style s) =
      pure (resolve schema style s) := by
  unfold resolveBound resolve
  dsimp only
  cases bound : (AnnotatedSql.bind style s).value with
  | none => rfl
  | some parameters =>
    obtain ⟨accepts, rfl⟩ := Binding.bind_value_iff.mp bound
    dsimp only
    rw [scope_eq, pure_bind]
    cases Scope.ofStatement schema s with
    | error finding => rfl
    | ok scope =>
      dsimp only
      rw [resolveIn_eq paired fun _ => occurs_of_table accepts, pure_bind]

end Resolving

end Checked

/-! ## Tokens of a part -/

theorem Spanned.imp {holds others : Span → Prop} {tokens : List Token}
    (spanned : Spanned holds tokens) (implies : ∀ span, holds span → others span) :
    Spanned others tokens :=
  ⟨fun token member => implies _ (spanned.single token member),
    spanned.joined.imp fun joined => implies _ joined⟩

/-- From one token to a later one is a piece of the text. -/
theorem significantAt_spanned (offset : Nat) (text : List Char) :
    Spanned (Span.Cuts offset text) (significantAt offset text) := by
  have cuts : ∀ token ∈ significantAt offset text, token.span.Cuts offset text :=
    fun token member => (significantAt_holds member).cuts
  have apart := (List.pairwise_map.mp (place_tile offset (lexemes text)).apart).sublist
    (List.filter_sublist (p := fun token => !token.kind.isTrivia))
  refine ⟨cuts, apart.imp_of_mem fun {first later} firstMember laterMember before => ?_⟩
  have firstCuts := cuts first firstMember
  have laterCuts := cuts later laterMember
  exact ⟨Nat.le_trans firstCuts.ordered (Nat.le_trans before laterCuts.ordered),
    firstCuts.starts, laterCuts.stops⟩

namespace Checked

/-- The tokens of a part that begins at `start`, each spelled as in the whole text, which begins at
`base`. -/
def tokensOf (base : Nat) (whole : List Char) (start : Nat) (part : List Char) :
    Checked (List Token) := do
  let tokens ← significantAt start part
  tokens.mapM (spell base whole)

theorem tokensOf_eq {base : Nat} {whole part : List Char} {span : Span}
    (holds : span.Holds base whole part) (fits : base + byteLength whole < UInt32.size) :
    tokensOf base whole span.start part = pure (AnnotatedSql.significantAt span.start part) := by
  obtain ⟨before, after, rfl, rfl⟩ := holds
  simp only [byteLength_append] at fits
  unfold tokensOf
  rw [significantAt_eq (by dsimp only; omega), pure_bind, mapM_eq fun token member =>
    spell_eq member (significantAt_holds member).within]
  exact congrArg pure (List.map_id' _)

end Checked

/-! ## Reading a block -/

/-- A report that refers to no other place. -/
theorem Report.Placed.alone {kind : DiagnosticKind} {index : Nat} {text : List Char} {span : Span}
    {message : String} (cuts : span.Cuts 0 text) :
    Report.Placed index text ⟨kind, index, span, message, []⟩ :=
  ⟨rfl, cuts, fun _ none => nomatch none⟩

/-- A report that refers to one other place. -/
theorem Report.Placed.referring {kind : DiagnosticKind} {index : Nat} {text : List Char}
    {span other : Span} {message label : String} (cuts : span.Cuts 0 text)
    (otherCuts : other.Cuts 0 text) :
    Report.Placed index text ⟨kind, index, span, message, [⟨label, index, other⟩]⟩ := by
  refine ⟨rfl, cuts, fun related member => ?_⟩
  obtain rfl := List.mem_singleton.mp member
  exact ⟨rfl, otherCuts⟩

namespace Checked

/-- The block with the given parts. -/
def blockOf (text : List Char) (parts : BlockParts) : Checked Block := do
  let line ← cut text parts.span.start parts.bodySpan.start
  pure ⟨parts.span.start, line, parts.body⟩

/-- Reads a block of the source with the given index. -/
def readQuery (index : Nat) (suffix : String) (text : List Char) (parts : BlockParts) :
    Checked (Except Report Query) := do
  let headerTokens ← tokensOf 0 text parts.headerSpan.start parts.header
  match ← header suffix headerTokens with
  | .error fault => do
    let block ← blockOf text parts
    pure (.error (fault.report index block))
  | .ok header => do
    let bodyTokens ← significantAt parts.bodySpan.start parts.body
    pure (if bodyTokens.any fun token => token.kind != .semicolon then
        .ok { source := index, header, headerSpan := parts.headerSpan
              body := parts.body, bodySpan := parts.bodySpan }
      else .error (.detailed .emptyQueryBody index header.nameSpan header.descriptor.name))

end Checked

section

variable {index : Nat} {suffix : String} {text : List Char} {block : Block}
  (composed : block.Composed text)

include composed

theorem Block.Composed.headerTokens_spanned :
    Spanned (Span.Cuts 0 text) block.headerTokens := by
  obtain ⟨before, after, whole, here⟩ := composed.header
  have spanned := significantAt_spanned block.headerSpan.start block.header
  rw [here] at spanned
  rw [headerTokens, here, whole]
  exact spanned.imp fun _ cuts => cuts.within

/-- A query is made of pieces of the text. -/
theorem Query.ofBlock_placed {query : Query} (read : Query.ofBlock index suffix block = .ok query) :
    query.Placed index text := by
  have sound := Header.ofTokens_sound suffix composed.headerTokens_spanned
  obtain ⟨header, parsed, _, rfl⟩ := Query.ofBlock_eq_ok.mp read
  rw [parsed] at sound
  exact ⟨rfl, sound, composed.header.cuts, composed.body⟩

namespace Checked

variable (fits : byteLength text < UInt32.size)

include fits

end Checked

end

/-! ## Resolving a query -/

namespace Checked

/-- Reads the body of a query and matches its parentheses. -/
def readBody (query : Query) : Checked Body := do
  let base := query.bodySpan.start
  let tokens ← tokensOf base query.body base query.body
  let _ ← nest (tokens.map (·.kind))
  pure ⟨base, query.body, tokens.toArray⟩

/-- Resolves a query. Once it is bound it is also rewritten. -/
def resolveQuery (schema : Schema) (query : Query) :
    Checked (Option ResolvedQuery × List Report) := do
  let body ← readBody query
  let bound ← bind query.descriptor.bindingStyle body.statement
  let _ ← bound.value.toList.mapM (rewrite body.base body.text)
  let resolved ← resolveBound schema body.statement bound
  let reports ← resolved.findings.mapM (report query body)
  pure (resolved.value.map (⟨query, ·⟩), reports)

end Checked

/-- The numbers of the query fit in 32 bits. -/
structure Query.Narrow (query : Query) : Prop where
  statement : query.statement.Narrow
  declared : query.descriptor.bindingStyle.declaredNames.length < UInt32.size

/-- The placeholders and the first cast of the parameter are pieces of the text. -/
structure Parameter.Placed (body : Body) (text : List Char) (parameter : Parameter) : Prop where
  occurrences : ∀ span ∈ parameter.occurrenceSpans body, span.Cuts 0 text
  hint : ∀ span, parameter.hintSpan? body = some span → span.Cuts 0 text

namespace Query.Placed

variable {index : Nat} {text : List Char} {query : Query} (placed : query.Placed index text)

include placed

variable (fits : byteLength text < UInt32.size)

include fits

theorem body_fits : query.bodySpan.start + byteLength query.body < UInt32.size := by
  have ends := placed.body.cuts.stops.bounds.2
  obtain ⟨before, after, _, here⟩ := placed.body
  rw [here] at ends ⊢
  dsimp only at ends ⊢
  omega

theorem readBody_eq : Checked.readBody query = pure query.read := by
  have tokens : Checked.tokensOf query.bodySpan.start query.body query.bodySpan.start query.body =
      pure (significantAt query.bodySpan.start query.body) :=
    @Checked.tokensOf_eq _ _ _ ⟨query.bodySpan.start, query.bodySpan.start + byteLength query.body⟩
      ⟨[], [], by simp, by simp⟩ (placed.body_fits fits)
  have nested := Checked.nest_eq ((significantAt query.bodySpan.start query.body).map (·.toLexeme))
  rw [List.map_map] at nested
  change Checked.nest ((significantAt query.bodySpan.start query.body).map (·.kind)) = _ at nested
  unfold Checked.readBody
  dsimp only
  rw [tokens, pure_bind, nested, pure_bind]
  rfl

/-- Resolving a query meets no trap. -/
theorem resolveQuery_eq {schema : Schema} (narrow : query.Narrow) :
    Checked.resolveQuery schema query = pure (query.resolve schema) := by
  have rewritten : ∀ parameters ∈ query.bind.value.toList,
      Checked.rewrite query.read.base query.read.text parameters =
        pure (rewriteText parameters query.body) :=
    fun parameters _ => Checked.rewrite_eq parameters (placed.body_fits fits)
  have reported : ∀ finding ∈
      (AnnotatedSql.resolve schema query.descriptor.bindingStyle query.statement).findings,
      Checked.report query query.read finding = pure (finding.report query query.read) :=
    fun finding found => (placed.report_eq (resolve_within query.statement_paired found)).1
  -- Each stage is replaced by its equation, in the order in which they run.
  unfold Checked.resolveQuery
  rw [placed.readBody_eq fits, pure_bind]
  change (Checked.bind query.descriptor.bindingStyle query.statement >>= _) = _
  rw [Checked.bind_eq narrow.statement narrow.declared, pure_bind]
  change (query.bind.value.toList.mapM (Checked.rewrite query.read.base query.read.text) >>= _) = _
  rw [Checked.mapM_eq rewritten, pure_bind]
  change (Checked.resolveBound schema query.statement _ >>= _) = _
  rw [Checked.resolveBound_eq query.statement_paired, pure_bind, Checked.mapM_eq reported, pure_bind]
  rfl

end Query.Placed

/-! ## Small numbers -/

theorem digitsBelow_lt {bound number : Nat} {digits : List Char}
    (reads : digitsBelow? bound digits = some number) : number < bound := by
  unfold digitsBelow? at reads
  split at reads
  · cases reads
  · dsimp only at reads
    split at reads
    next below =>
      cases reads
      exact below
    · cases reads

theorem numeral_lt {spelling : String} {number : Nat} (reads : numeral? spelling = some number) :
    number < UInt32.size := by
  unfold numeral? numeralBelow? at reads
  split at reads
  · exact digitsBelow_lt reads
  · exact digitsBelow_lt reads

/-- A position that a placeholder has fits in 32 bits. -/
theorem ParamKey.position_lt {lexeme : Lexeme} {number : Nat}
    (key : ofLexeme? lexeme = some (.positional number)) : number < UInt32.size := by
  unfold ofLexeme? at key
  dsimp only at key
  split at key
  · obtain ⟨_, reads, same⟩ := Option.map_eq_some_iff.mp key
    cases same
    exact numeral_lt reads
  · cases key
  · cases key

/-- No placeholder of the body has the greatest position, which none can follow. -/
def Followable (body : List Char) : Prop :=
  ∀ lexeme ∈ lexemes body, ParamKey.ofLexeme? lexeme ≠ some (.positional (UInt32.size - 1))

theorem Body.read_narrow {base : Nat} {body : List Char} (fits : byteLength body < UInt32.size)
    (followable : Followable body) : (Body.read base body).statement.Narrow := by
  refine ⟨Statement.ofLexemes_paired _, ?_, fun position listed => ?_⟩
  · rw [Body.size_read]
    exact Nat.lt_of_le_of_lt (significantAt_length_le base body) fits
  · obtain ⟨i, found⟩ := Statement.mem_keys.mp (Statement.mem_positions.mp listed)
    obtain ⟨lexeme, read, key⟩ := Option.bind_eq_some_iff.mp found
    have listed : ∃ token ∈ significantAt base body, token.toLexeme = lexeme := by
      simpa [Body.statement, Body.read, Statement.ofLexemes] using Array.mem_of_getElem? read
    obtain ⟨token, member, rfl⟩ := listed
    have inBody := mem_lexemes_of_place (List.mem_filter.mp member).1
    have below := ParamKey.position_lt key
    have other : position ≠ UInt32.size - 1 := by
      rintro rfl
      exact followable _ inBody key
    omega

/-- The numbers of a query fit in 32 bits. -/
theorem Query.ofBlock_narrow {index : Nat} {suffix : String} {text : List Char} {block : Block}
    {query : Query} (composed : block.Composed text) (fits : byteLength text < UInt32.size)
    (followable : Followable block.body)
    (read : Query.ofBlock index suffix block = .ok query) : query.Narrow := by
  have short : ∀ {span : Span} {part : List Char}, span.Holds 0 text part →
      byteLength part < UInt32.size := by
    rintro span part ⟨before, after, rfl, _⟩
    simp only [byteLength_append] at fits
    omega
  obtain ⟨header, parsed, _, rfl⟩ := Query.ofBlock_eq_ok.mp read
  refine ⟨Body.read_narrow (short composed.body) followable, ?_⟩
  have few := Header.ofTokens_declared parsed
  have tokens := significantAt_length_le block.headerSpan.start block.header
  exact Nat.lt_of_le_of_lt (Nat.le_trans few tokens) (short composed.header)

end AnnotatedSql
