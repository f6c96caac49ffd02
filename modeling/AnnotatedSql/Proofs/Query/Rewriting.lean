import AnnotatedSql.Proofs.Parameter.Placeholder
import AnnotatedSql.Proofs.Projection.Renumbered
import AnnotatedSql.Proofs.Projection.Typed
import AnnotatedSql.Proofs.Query.Shift
import AnnotatedSql.Proofs.Statement.Masked
import AnnotatedSql.Proofs.Token.Trimming

/-!
# Rewritten queries

The text that a resolved query is run with is itself the body of a query. It resolves without a
declaration and without a finding, to the same types and columns, and it is its own rewritten text.
-/

namespace AnnotatedSql

/-! ## Statements -/

/-- A resolved statement with slots for placeholders resolves to the same. -/
theorem resolve_numbered {schema : Schema} {style : BindingStyle} {s t : Statement}
    {resolution : Resolution} (paired : s.Paired) (nested : s.Nested)
    (resolves : (resolve schema style s).value = some resolution)
    (renames : s.Renames id (Binding.slotKey style s) t) :
    ∃ scope again, Scope.ofStatement schema s = .ok scope ∧
      resolve schema .implicit t = ⟨some again, []⟩ ∧
      again.parameters = resolution.parameters.map Parameter.numbered ∧
      ResultsAgree ⟨schema, s, scope, resolution.parameters⟩ resolution.result again.result := by
  obtain ⟨accepts, scope, built, inScope⟩ := resolve_success resolves
  obtain ⟨harmless, parameters, projected⟩ := resolveIn_success inScope
  have within := Scope.Within.ofStatement built
  have typing : (typeParameters schema s scope (Binding.table style s)).2 = [] := by
    refine List.eq_nil_iff_forall_not_mem.mpr fun finding member => ?_
    have fails := (typeParameters_fatal paired accepts member).isError
    exact List.any_eq_false.mp harmless finding (List.mem_append_left _ member) fails
  have clean : (resolveIn schema s (Binding.table style s) scope).findings = [] :=
    List.append_eq_nil_iff.mpr ⟨typing, Surroundings.project_findings projected⟩
  obtain ⟨kinds, outcomes⟩ := resolveIn_renamed nested (unnoticed_id schema) s.allNames_true within
    renames accepts.numbered_changes Binding.table_untyped
  rw [Scope.respelled_id] at kinds outcomes
  rw [clean, List.map_nil, List.map_eq_nil_iff] at kinds
  rcases outcomes with ⟨none, _⟩ | ⟨found, again, first, second, types, agree⟩
  · rw [none] at inScope
    cases inScope
  obtain rfl : found = resolution := Option.some.inj (first.symm.trans inScope)
  have bound := Binding.bind_numbered accepts renames
  have sameScope := Scope.ofStatement_ok (unnoticed_id schema) renames.mirrors built
  rw [Scope.respelled_id] at sameScope
  refine ⟨scope, again, built, ?_, types, agree.numbered⟩
  unfold resolve
  rw [bound]
  dsimp only
  rw [sameScope]
  dsimp only
  rw [second, kinds]
  rfl

/-! ## Texts -/

/-- The lexeme with the slot of its parameter in place of a name. -/
def rewritten (parameters : List Parameter) (lexeme : Lexeme) : Lexeme :=
  match lexeme.kind with
  | .namedParam =>
    match slotOfName? parameters (String.ofList (lexeme.text.toList.drop 1)) with
    | some slot => ⟨.positionalParam, (ParamKey.positional slot).display⟩
    | none => lexeme
  | _ => lexeme

theorem rewritten_text (parameters : List Parameter) (lexeme : Lexeme) :
    (rewritten parameters lexeme).text.toList = rewriteLexeme parameters lexeme := by
  rcases lexeme with ⟨kind, text⟩
  cases kind with
  | namedParam =>
    simp only [rewritten, rewriteLexeme, ParamKey.ofLexeme?]
    cases slotOfName? parameters (String.ofList (text.toList.drop 1)) <;> rfl
  | _ => rfl

/-- A lexeme is kept, or is a name that gives way to a slot. -/
theorem rewritten_cases (parameters : List Parameter) (lexeme : Lexeme) :
    rewritten parameters lexeme = lexeme ∨ lexeme.kind = .namedParam ∧
      ∃ slot, rewritten parameters lexeme =
        ⟨.positionalParam, (ParamKey.positional slot).display⟩ := by
  rcases lexeme with ⟨kind, text⟩
  cases kind with
  | namedParam =>
    cases found : slotOfName? parameters (String.ofList (text.toList.drop 1)) with
    | none => exact Or.inl (by simp only [rewritten, found])
    | some slot => exact Or.inr ⟨rfl, slot, by simp only [rewritten, found]⟩
  | _ => exact Or.inl rfl

theorem rewritten_isTrivia (parameters : List Parameter) (lexeme : Lexeme) :
    (rewritten parameters lexeme).kind.isTrivia = lexeme.kind.isTrivia := by
  rcases rewritten_cases parameters lexeme with kept | ⟨named, slot, placed⟩
  · rw [kept]
  · rw [placed, named]
    rfl

theorem rewritten_masked (parameters : List Parameter) (lexeme : Lexeme) :
    (rewritten parameters lexeme).masked = lexeme.masked := by
  rcases rewritten_cases parameters lexeme with kept | ⟨named, slot, placed⟩
  · rw [kept]
  · rw [placed, Lexeme.masked, Lexeme.masked, named]
    rfl

/-- A lexeme that is cut from a text may be rewritten in its place. -/
theorem respells_rewritten (parameters : List Parameter) {lexeme : Lexeme}
    (written : lexeme.kind = .namedParam → Pattern.Matches Rule.named lexeme.text.toList) :
    Lexeme.Respells lexeme (rewritten parameters lexeme) := by
  rcases rewritten_cases parameters lexeme with kept | ⟨named, slot, placed⟩
  · rw [kept]
    exact .same _
  · have respells := Lexeme.Respells.numbered (written named) (ParamKey.matches_display slot)
    rw [String.ofList_toList, String.ofList_toList, ← named] at respells
    rw [placed]
    exact respells

/-- What is cut as a name is one. -/
theorem Lexes.matches_named {text : List Char} {found : List Lexeme} (lexes : Lexes text found)
    {lexeme : Lexeme} (member : lexeme ∈ found) (named : lexeme.kind = .namedParam) :
    Pattern.Matches Rule.named lexeme.text.toList := by
  induction lexes with
  | nil => cases member
  | @cons kind token rest others begins _ ih =>
    rcases List.mem_cons.mp member with rfl | later
    · rw [String.toList_ofList]
      cases begins with
      | rule _ longest => exact Lexer.named_of_reading (named ▸ longest.matched)
      | quoted isString _ _ _ _ _ _ =>
        cases isString.symm.trans named
    · exact ih later

theorem Lexes.rewritten {text : List Char} {found : List Lexeme} (lexes : Lexes text found)
    (parameters : List Parameter) :
    Lexes (textOf (found.map (rewritten parameters))) (found.map (rewritten parameters)) := by
  refine lexes.respelled (List.forall₂_map_right_iff.mpr (List.forall₂_same.mpr ?_))
  exact fun lexeme member => respells_rewritten parameters (lexes.matches_named member)

theorem rewriteText_eq (parameters : List Parameter) (text : List Char) :
    rewriteText parameters text = textOf ((lexemes text).map (rewritten parameters)) := by
  unfold rewriteText textOf
  rw [List.flatMap_map]
  congr 1
  funext lexeme
  exact (rewritten_text parameters lexeme).symm

/-- Rewriting and trimming a text without a fault rewrites its significant lexemes. -/
theorem significant_rewritten {text : List Char}
    (clean : ∀ lexeme ∈ lexemes text, lexeme.kind ≠ .garbage) (parameters : List Parameter) :
    significant (trim (rewriteText parameters text)) =
      (significant text).map (rewritten parameters) := by
  obtain ⟨kept, lexes, same⟩ := ((lexes_lexemes clean).rewritten parameters).trim
  have trivia : (fun lexeme : Lexeme => !lexeme.kind.isTrivia) ∘ rewritten parameters =
      fun lexeme => !lexeme.kind.isTrivia := by
    funext lexeme
    rw [Function.comp_apply, rewritten_isTrivia]
  calc significant (trim (rewriteText parameters text))
      = meaningful (lexemes (trim (textOf ((lexemes text).map (rewritten parameters))))) := by
        rw [rewriteText_eq]
        rfl
    _ = meaningful ((lexemes text).map (rewritten parameters)) := by rw [lexes.lexemes_eq, same]
    _ = (significant text).map (rewritten parameters) := by
        unfold meaningful significant
        rw [List.filter_map, trivia]

/-! ## Slots -/

section Slots

open Binding

variable {style : BindingStyle} {s : Statement} {parameters : List Parameter}
  (accepts : Accepts style s) (keys : parameters.map Parameter.key = orderedKeys style s)
  (slots : parameters.map Parameter.slot = List.range' 1 parameters.length)

include accepts keys slots

/-- The slot of a name is its place among the keys. -/
theorem slotOfName_eq {name : String} (used : .named name ∈ s.keys) :
    slotOfName? parameters name = some ((orderedKeys style s).idxOf (.named name) + 1) := by
  have listed := accepts.mem_orderedKeys.mpr used
  unfold slotOfName?
  cases found : parameters.find? (·.key == .named name) with
  | none =>
    rw [← keys] at listed
    obtain ⟨p, member, same⟩ := List.mem_map.mp listed
    have different := List.find?_eq_none.mp found p member
    exact absurd (beq_iff_eq.mpr same) different
  | some p =>
    have accepted := List.find?_some found
    have named : p.key = .named name := eq_of_beq accepted
    obtain ⟨index, at_index⟩ := List.mem_iff_getElem?.mp (List.mem_of_find?_eq_some found)
    have keyAt : (orderedKeys style s)[index]? = some (.named name) := by
      rw [← keys, List.getElem?_map, at_index, ← named]
      rfl
    have slotAt : (List.range' 1 parameters.length)[index]? = some p.slot := by
      rw [← slots, List.getElem?_map, at_index]
      rfl
    obtain ⟨_, slot⟩ := List.getElem?_eq_some_iff.mp slotAt
    rw [List.getElem_range'] at slot
    rw [slot_of_getElem keyAt, Option.map_some, ← slot]
    congr 1
    omega

/-- A rewritten placeholder stands for the slot of the parameter it stood for. -/
theorem rewritten_key (small : (orderedKeys style s).length < UInt32.size) {lexeme : Lexeme}
    (used : ∀ key, ParamKey.ofLexeme? lexeme = some key → key ∈ s.keys) :
    ParamKey.ofLexeme? (rewritten parameters lexeme) =
      (ParamKey.ofLexeme? lexeme).map (slotKey style s) := by
  rcases lexeme with ⟨kind, text⟩
  cases kind with
  | namedParam =>
    have named : .named (String.ofList (text.toList.drop 1)) ∈ s.keys := used _ rfl
    have slot := slotOfName_eq accepts keys slots named
    have inside := List.idxOf_lt_length_iff.mpr (accepts.mem_orderedKeys.mpr named)
    simp only [rewritten, slot]
    exact ParamKey.ofLexeme_display (by omega)
  | positionalParam =>
    have kept : rewritten parameters ⟨.positionalParam, text⟩ = ⟨.positionalParam, text⟩ := rfl
    rw [kept]
    cases read : ParamKey.ofLexeme? ⟨.positionalParam, text⟩ with
    | none => rfl
    | some key =>
      obtain ⟨number, _, rfl⟩ := Option.map_eq_some_iff.mp read
      rw [Option.map_some, accepts.slotKey_positional (used _ read)]
  | _ => rfl

/-- The rewritten lexemes make up the statement with slots for placeholders. -/
theorem renames_rewritten {found : List Lexeme} (whole : s = .ofLexemes found)
    (small : (orderedKeys style s).length < UInt32.size) :
    s.Renames id (slotKey style s) (.ofLexemes (found.map (rewritten parameters))) := by
  refine ⟨Statement.mirrors_of_masked ?_, fun i => ?_,
    fun a used b _ => accepts.slotKey_injective used⟩
  · rw [whole, ← Statement.ofLexemes_masked, ← Statement.ofLexemes_masked, List.map_map]
    congr 1
    refine List.map_congr_left fun lexeme _ => ?_
    exact rewritten_masked parameters lexeme
  · have read : s.paramKey? i = found[i]?.bind ParamKey.ofLexeme? := by
      rw [whole]
      simp [Statement.paramKey?, Statement.ofLexemes]
    have readNumbered : (Statement.ofLexemes (found.map (rewritten parameters))).paramKey? i =
        found[i]?.bind fun lexeme => ParamKey.ofLexeme? (rewritten parameters lexeme) := by
      simp [Statement.paramKey?, Statement.ofLexemes, Option.bind_map, Function.comp_def]
    rw [readNumbered, read]
    cases lexemeAt : found[i]? with
    | none => rfl
    | some lexeme =>
      refine rewritten_key accepts keys slots small fun key stands => ?_
      refine Statement.mem_keys.mpr ⟨i, ?_⟩
      rw [read, lexemeAt]
      exact stands

end Slots

/-! ## Sizes -/

theorem Lexes.length_le {text : List Char} {found : List Lexeme} (lexes : Lexes text found) :
    found.length ≤ byteLength text := by
  induction lexes with
  | nil => simp
  | @cons kind token rest others begins _ ih =>
    obtain ⟨c, tail, rfl⟩ := List.exists_cons_of_ne_nil begins.ne_nil
    have positive := c.utf8Size_pos
    simp only [List.length_cons, List.cons_append, byteLength_cons, byteLength_append]
    omega

/-- A statement has no more parameters than tokens. -/
theorem Binding.Accepts.orderedKeys_length_le {style : BindingStyle} {s : Statement}
    (accepts : Accepts style s) : (orderedKeys style s).length ≤ s.size := by
  have within : (orderedKeys style s).map s.firstOccurrence ⊆ List.range s.size := by
    intro i member
    obtain ⟨key, listed, rfl⟩ := List.mem_map.mp member
    exact List.mem_range.mpr (Statement.mem_firstOccurrence (accepts.mem_orderedKeys.mp listed))
  have distinct : ((orderedKeys style s).map s.firstOccurrence).Nodup := by
    refine List.Nodup.map_on (fun a aListed b bListed same => ?_) (orderedKeys_nodup style s)
    have first := Statement.paramKey_firstOccurrence (accepts.mem_orderedKeys.mp aListed)
    have second := Statement.paramKey_firstOccurrence (accepts.mem_orderedKeys.mp bListed)
    rw [same, second] at first
    exact (Option.some.inj first).symm
  have bounded := (List.subperm_of_subset distinct within).length_le
  simpa using bounded

/-! ## Queries -/

/-- A text without names is its own rewritten text. -/
theorem rewriteText_of_numbered (parameters : List Parameter) {text : List Char}
    (numbered : ∀ lexeme ∈ lexemes text, lexeme.kind ≠ .namedParam) :
    rewriteText parameters text = text := by
  have same : ∀ lexeme ∈ lexemes text, rewritten parameters lexeme = lexeme := by
    rintro ⟨kind, spelling⟩ member
    have other := numbered _ member
    cases kind with
    | namedParam => exact absurd rfl other
    | _ => rfl
  rw [rewriteText_eq, List.map_congr_left same, List.map_id']
  exact lexemes_flatten text

namespace Query

variable {schema : Schema} {query : Query} {resolution : Resolution}

theorem statement_eq (query : Query) : query.statement = .ofLexemes (significant query.body) :=
  Body.read_statement _ _

theorem statement_nested (query : Query) : query.statement.Nested := by
  rw [statement_eq]
  exact Statement.ofLexemes_nested _

/-- What is known of the parameters of a resolved query. -/
theorem resolved_parameters
    (resolves : (AnnotatedSql.resolve schema query.descriptor.bindingStyle query.statement).value =
      some resolution) :
    Binding.Accepts query.descriptor.bindingStyle query.statement ∧
      resolution.parameters.map Parameter.key =
        Binding.orderedKeys query.descriptor.bindingStyle query.statement ∧
      resolution.parameters.map Parameter.slot = List.range' 1 resolution.parameters.length := by
  obtain ⟨accepts, scope, _, inScope⟩ := resolve_success resolves
  obtain ⟨_, parameters, _⟩ := resolveIn_success inScope
  have keys := typeParameters_keys schema query.statement scope
    (Binding.table query.descriptor.bindingStyle query.statement)
  have slots := typeParameters_slots schema query.statement scope
    (Binding.table query.descriptor.bindingStyle query.statement)
  rw [← parameters, Binding.table_keys] at keys
  rw [← parameters, Binding.table_slots, Binding.table_length] at slots
  have lengths := congrArg List.length keys
  rw [List.length_map] at lengths
  refine ⟨accepts, keys, ?_⟩
  rw [slots, lengths]

/-- No name is left in a rewritten text. -/
theorem rewritten_numbered
    (clean : ∀ lexeme ∈ lexemes query.body, lexeme.kind ≠ .garbage)
    (resolves : (AnnotatedSql.resolve schema query.descriptor.bindingStyle query.statement).value =
      some resolution) :
    ∀ lexeme ∈ lexemes (trim (rewriteText resolution.parameters query.body)),
      lexeme.kind ≠ .namedParam := by
  intro lexeme member named
  obtain ⟨accepts, keys, slots⟩ := resolved_parameters resolves
  have meant : lexeme ∈ significant (trim (rewriteText resolution.parameters query.body)) :=
    List.mem_filter.mpr ⟨member, by simp [named, TokenKind.isTrivia]⟩
  rw [significant_rewritten clean] at meant
  obtain ⟨⟨kind, text⟩, listed, rfl⟩ := List.mem_map.mp meant
  cases kind with
  | namedParam =>
    have used : .named (String.ofList (text.toList.drop 1)) ∈ query.statement.keys := by
      obtain ⟨i, lexemeAt⟩ := List.mem_iff_getElem?.mp listed
      refine Statement.mem_keys.mpr ⟨i, ?_⟩
      rw [statement_eq]
      simp [Statement.paramKey?, Statement.ofLexemes, lexemeAt, ParamKey.ofLexeme?]
    simp only [rewritten, slotOfName_eq accepts keys slots used] at named
    cases named
  | _ => cases named

end Query

/-- Rewriting keeps the meaning. The text that a resolved query is run with, taken for the body of a
query without a declaration, resolves without a finding. Its parameters have the same types and
casts, the `k`-th being `$k`; it gives rows of the same columns, apart from the names of those that
are placeholders, or none alike; and it is its own rewritten text. Offsets have 32 bits. -/
theorem resolve_rewritten {schema : Schema} {query other : Query} {resolved : ResolvedQuery}
    (clean : ∀ lexeme ∈ lexemes query.body, lexeme.kind ≠ .garbage)
    (short : byteLength query.body < UInt32.size)
    (accepted : (query.resolve schema).1 = some resolved)
    (implicit : other.descriptor.bindingStyle = .implicit)
    (body : other.body = resolved.rewrittenSql.toList) :
    ∃ again scope, other.resolve schema = (some again, []) ∧
      resolved.parameters.map Parameter.slot = List.range' 1 resolved.parameters.length ∧
      again.parameters = resolved.parameters.map Parameter.numbered ∧
      Scope.ofStatement schema query.statement = .ok scope ∧
      ResultsAgree ⟨schema, query.statement, scope, resolved.parameters⟩
        resolved.result again.result ∧
      again.rewrittenSql = resolved.rewrittenSql := by
  obtain ⟨resolution, resolves, rfl⟩ := Option.map_eq_some_iff.mp accepted
  obtain ⟨accepts, keys, slots⟩ := Query.resolved_parameters resolves
  have lexes := lexes_lexemes clean
  have small :
      (Binding.orderedKeys query.descriptor.bindingStyle query.statement).length < UInt32.size := by
    have tokens := accepts.orderedKeys_length_le
    have kept : query.statement.size ≤ (lexemes query.body).length := by
      rw [query.statement_eq]
      simp only [Statement.size, Statement.ofLexemes, List.size_toArray]
      exact List.length_filter_le (fun lexeme => !lexeme.kind.isTrivia) (lexemes query.body)
    have characters := lexes.length_le
    omega
  have renames := renames_rewritten accepts keys slots query.statement_eq small
  have text : other.body = trim (rewriteText resolution.parameters query.body) := by
    rw [body]
    exact String.toList_ofList
  have otherStatement : other.statement =
      .ofLexemes ((significant query.body).map (rewritten resolution.parameters)) := by
    rw [other.statement_eq, text, significant_rewritten clean]
  obtain ⟨scope, again, built, resolvesAgain, parameters, agree⟩ :=
    resolve_numbered query.statement_paired query.statement_nested resolves renames
  refine ⟨⟨other, again⟩, scope, ?_, slots, parameters, built, agree, ?_⟩
  · unfold Query.resolve
    rw [implicit, otherStatement, resolvesAgain]
    rfl
  · have unchanged := rewriteText_of_numbered again.parameters
      (text ▸ Query.rewritten_numbered clean resolves)
    calc String.ofList (trim (rewriteText again.parameters other.body))
        = String.ofList (trim other.body) := by rw [unchanged]
      _ = String.ofList (trim (rewriteText resolution.parameters query.body)) := by
        rw [text, trim_idempotent]

/-- Declared in one order and used in the other: the first placeholder has slot 2. -/
theorem resolve_rewritten_reordered :
    let query : Query :=
      ⟨0, ⟨⟨"q", .explicitList ["a", "b"], .many, false⟩, ⟨3, 4⟩, [⟨5, 6⟩, ⟨7, 8⟩], none⟩, ⟨3, 9⟩,
        "select :b::int2,:a::int4".toList, ⟨10, 34⟩⟩
    let other : Query :=
      ⟨0, ⟨⟨"q", .implicit, .many, false⟩, ⟨3, 4⟩, [], none⟩, ⟨3, 4⟩,
        "select $2::int2,$1::int4".toList, ⟨5, 29⟩⟩
    (parseModule 0 "" "--!q(a,b)\nselect :b::int2,:a::int4".toList).queries = [query] ∧
      (∀ lexeme ∈ lexemes query.body, lexeme.kind ≠ .garbage) ∧
      byteLength query.body < UInt32.size ∧ other.descriptor.bindingStyle = .implicit ∧
      ∃ resolved, (query.resolve {}).1 = some resolved ∧
        other.body = resolved.rewrittenSql.toList ∧
        ∃ again scope, other.resolve {} = (some again, []) ∧
          resolved.parameters.map Parameter.slot = List.range' 1 resolved.parameters.length ∧
          again.parameters = resolved.parameters.map Parameter.numbered ∧
          Scope.ofStatement {} query.statement = .ok scope ∧
          ResultsAgree ⟨{}, query.statement, scope, resolved.parameters⟩
            resolved.result again.result ∧
          again.rewrittenSql = resolved.rewrittenSql := by
  intro query other
  have clean : ∀ lexeme ∈ lexemes query.body, lexeme.kind ≠ .garbage := by decide +kernel
  have short : byteLength query.body < UInt32.size := by decide
  have resolves : ((query.resolve {}).1.map ResolvedQuery.rewrittenSql) =
      some "select $2::int2,$1::int4" := by decide +kernel
  obtain ⟨resolved, accepted, text⟩ := Option.map_eq_some_iff.mp resolves
  have body : other.body = resolved.rewrittenSql.toList := by rw [text]
  refine ⟨by decide +kernel, clean, short, rfl, resolved, accepted, body, ?_⟩
  exact resolve_rewritten clean short accepted rfl body

end AnnotatedSql
