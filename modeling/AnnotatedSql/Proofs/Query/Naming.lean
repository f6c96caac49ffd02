import AnnotatedSql.Proofs.Projection.Bare
import AnnotatedSql.Proofs.Projection.Typed
import AnnotatedSql.Proofs.Query.Rewriting
import AnnotatedSql.Proofs.Resolution.Naming

/-!
# Quoted names

A quoted name that a query refers to something by is the name of that thing, character for character. Only
the field of a composite may differ in case, where the composite has no field of exactly that name.
-/

namespace AnnotatedSql

theorem Statement.name_of_quoted {s : Statement} {i : Nat} (quoted : s.is i .quotedIdent = true) :
    ∃ text, s.name? i = some ⟨text, true⟩ := by
  unfold name?
  rw [eq_of_beq quoted]
  exact ⟨_, rfl⟩

/-- Whatever a quoted name of a query stands for, a relation, an entry, a column or a field, has exactly
that name if it is no field, and a field has it exactly if the composite has any such field. The names are
all those that are looked up by the steps that resolve the query. -/
theorem Query.quoted_names {schema : Schema} {query : Query} {resolved : ResolvedQuery}
    (resolves : (query.resolve schema).1 = some resolved) :
    ∃ bound scope, query.bind.value = some bound ∧
      Scope.ofStatement schema query.statement = .ok scope ∧
      (project ⟨schema, query.statement, scope, resolved.parameters⟩).value = some resolved.result ∧
      Surroundings.Recounts ⟨schema, query.statement, scope, resolved.parameters⟩ bound ∧
      ∀ use ∈ Surroundings.nameUses ⟨schema, query.statement, scope, resolved.parameters⟩,
        query.statement.is use.token .quotedIdent = true →
          ∃ text, query.statement.name? use.token = some ⟨text, true⟩ ∧
            equalFold use.referent.name text = true ∧
            (use.referent.name = text ↔ use.referent.Spells text) := by
  obtain ⟨bound, scope, binds, built, typed, projected⟩ := query.resolve_stages resolves
  have recounts : Surroundings.Recounts ⟨schema, query.statement, scope, resolved.parameters⟩ bound :=
    Surroundings.recounts_of_typed built typed
  refine ⟨bound, scope, binds, built, projected, recounts, fun use member quoted => ?_⟩
  obtain ⟨name, named, answers⟩ := Surroundings.nameUses_fit use member
  obtain ⟨text, exactly⟩ := Statement.name_of_quoted quoted
  obtain rfl : name = ⟨text, true⟩ := Option.some.inj (named.symm.trans exactly)
  exact ⟨text, exactly, answers.name⟩

/-- Quoted names of all kinds, one with a quote in it, one with a blank, and one of two fields that differ in
case. -/
theorem Query.quoted_names_of_each_kind :
    let pair : DataType := .composite "pair" [⟨"Wow", .scalar .text⟩, ⟨"wow", .scalar .int4⟩]
    let schema : Schema := ⟨[⟨"T\"x", [⟨"A b", .scalar .int4, false⟩, ⟨"c", pair, true⟩]⟩,
      ⟨"u", [⟨"y", .scalar .text, false⟩]⟩], [⟨"pair", pair⟩]⟩
    let query : Query := ⟨0, ⟨⟨"q", .implicit, .many, false⟩, ⟨4, 5⟩, [], none⟩, ⟨3, 5⟩,
      ("select (\"r\".c).\"Wow\", \"U\".* from \"T\"\"x\" as \"r\", u as \"U\" " ++
        "where \"A b\" = :p;\n").toList, ⟨6, 81⟩⟩
    ∃ resolved, (query.resolve schema).1 = some resolved ∧
      ((Scope.ofStatement schema query.statement).toOption.map fun scope =>
        (Surroundings.nameUses ⟨schema, query.statement, scope, resolved.parameters⟩).map fun use =>
          (use.token, use.referent.name)) =
        some [(13, "T\"x"), (17, "u"), (21, "A b"), (2, "r"), (4, "c"), (7, "Wow"), (9, "U")] ∧
      ∃ bound scope, query.bind.value = some bound ∧
        Scope.ofStatement schema query.statement = .ok scope ∧
        (project ⟨schema, query.statement, scope, resolved.parameters⟩).value =
          some resolved.result ∧
        Surroundings.Recounts ⟨schema, query.statement, scope, resolved.parameters⟩ bound ∧
        ∀ use ∈ Surroundings.nameUses ⟨schema, query.statement, scope, resolved.parameters⟩,
          query.statement.is use.token .quotedIdent = true →
            ∃ text, query.statement.name? use.token = some ⟨text, true⟩ ∧
              equalFold use.referent.name text = true ∧
              (use.referent.name = text ↔ use.referent.Spells text) := by
  intro pair schema query
  have uses : ((query.resolve schema).1.map fun resolved =>
      (Scope.ofStatement schema query.statement).toOption.map fun scope =>
        (Surroundings.nameUses ⟨schema, query.statement, scope, resolved.parameters⟩).map fun use =>
          (use.token, use.referent.name)) =
      some (some [(13, "T\"x"), (17, "u"), (21, "A b"), (2, "r"), (4, "c"), (7, "Wow"), (9, "U")]) := by
    decide +kernel
  obtain ⟨resolved, resolves, same⟩ := Option.map_eq_some_iff.mp uses
  exact ⟨resolved, resolves, same, Query.quoted_names resolves⟩

/-- A quoted name is taken for a field that differs from it in case. -/
theorem Query.quoted_field_of_other_case :
    let pair : DataType := .composite "pair" [⟨"wow", .scalar .text⟩]
    let schema : Schema := ⟨[⟨"t", [⟨"c", pair, false⟩]⟩], [⟨"pair", pair⟩]⟩
    let query : Query := ⟨0, ⟨⟨"q", .implicit, .many, false⟩, ⟨4, 5⟩, [], none⟩, ⟨3, 5⟩,
      "select (c).\"WOW\" from t;\n".toList, ⟨6, 31⟩⟩
    query ∈ (parseModule 0 "_stream" "--! q\nselect (c).\"WOW\" from t;\n".toList).queries ∧
      query.statement.is 5 .quotedIdent = true ∧
      query.statement.name? 5 = some ⟨"WOW", true⟩ ∧
      ∃ resolved scope, (query.resolve schema).1 = some resolved ∧
        resolved.columns = [⟨"wow", .scalar .text, true⟩] ∧
        Scope.ofStatement schema query.statement = .ok scope ∧
        ∃ use ∈ Surroundings.nameUses ⟨schema, query.statement, scope, resolved.parameters⟩,
          use.token = 5 ∧ use.referent.name = "wow" := by
  intro pair schema query
  let lexemes : List Lexeme := [⟨.ident, "select"⟩, ⟨.parenOpen, "("⟩, ⟨.ident, "c"⟩,
    ⟨.parenClose, ")"⟩, ⟨.dot, "."⟩, ⟨.quotedIdent, "\"WOW\""⟩, ⟨.ident, "from"⟩, ⟨.ident, "t"⟩,
    ⟨.semicolon, ";"⟩]
  have lexed : query.statement = .ofLexemes lexemes :=
    query.statement_eq.trans (congrArg _ (by decide +kernel))
  let scope : Scope := ⟨[⟨⟨"t", [⟨"c", pair, false⟩]⟩, none, false, none⟩], none⟩
  have built : Scope.ofStatement schema (.ofLexemes lexemes) = .ok scope := by decide +kernel
  have upper : foldCase "WOW" = "wow" := by decide +kernel
  have lower : foldCase "wow" = "wow" := by decide +kernel
  have folds : equalFold "wow" "WOW" = true := by simp [equalFold, upper, lower]
  have found : pair.field? "WOW" = some ⟨"wow", .scalar .text⟩ := by
    simp [pair, DataType.field?, folds]
  have named : (Statement.ofLexemes lexemes).name? 5 = some ⟨"WOW", true⟩ := by decide +kernel
  have owner : Surroundings.recordExpressionWithin ⟨schema, .ofLexemes lexemes, scope, []⟩ 4 2 3 =
      .done ⟨"c", pair, false⟩ [⟨2, .column ⟨"c", pair, false⟩⟩] := by decide +kernel
  have item := Surroundings.recordItem_of_field ⟨schema, .ofLexemes lexemes, scope, []⟩ 1 6 3 5
    ⟨by decide +kernel, by decide +kernel, by decide +kernel⟩ (by decide) (by decide +kernel)
    (by decide +kernel) (by decide +kernel) (by decide +kernel) (by decide +kernel) owner named found
  have items : (Statement.ofLexemes lexemes).projectionItems? = some [(1, 6)] := by decide +kernel
  have listed : Surroundings.item ⟨schema, .ofLexemes lexemes, scope, []⟩ 1 6 =
      .ok [⟨"wow", .scalar .text, true⟩] :=
    (Surroundings.erase_recordItem 1 6).symm.trans (congrArg Recording.erase item)
  have projected : project ⟨schema, .ofLexemes lexemes, scope, []⟩ =
      ⟨some (.rows [⟨"wow", .scalar .text, true⟩]), []⟩ :=
    Surroundings.project_item items listed
  have resolves : (query.resolve schema).1 =
      some ⟨query, [], .rows [⟨"wow", .scalar .text, true⟩]⟩ := by
    refine Query.resolve_of_projection (?_ : _ = some []) (lexed ▸ built) ?_ ?_
    all_goals rw [lexed]
    · decide +kernel
    · decide +kernel
    · exact projected
  have used : ⟨5, .field pair ⟨"wow", .scalar .text⟩⟩ ∈
      Surroundings.nameUses ⟨schema, .ofLexemes lexemes, scope, []⟩ := by
    refine List.mem_append_right _ ?_
    rw [items]
    refine List.mem_flatMap.mpr ⟨(1, 6), by simp, ?_⟩
    dsimp only
    rw [item]
    exact List.mem_append_right _ (List.mem_singleton_self _)
  rw [lexed]
  exact ⟨by decide +kernel, by decide +kernel, named, _, scope, resolves, rfl, built, _, used, rfl,
    rfl⟩

end AnnotatedSql
