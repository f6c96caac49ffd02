import AnnotatedSql.Proofs.Query.Rewriting
import AnnotatedSql.Proofs.Resolution.OuterJoins

/-!
# Queries from one chain of joins

The scope of a query that selects from one chain of joins has an entry for each table of the chain,
in order. A table is nullable exactly if a row may lack it: its own join may leave it out, or a later
one. The word before `JOIN` is taken for the side of the join also where it is the last part of a
name, so that a relation with such a name must not stand there.
-/

namespace AnnotatedSql

/-- The scope holds the tables of the chain, each nullable exactly if a row may lack it. Only words
within parentheses can make it fail. -/
theorem Query.scope_of_chain {schema : Schema} {query : Query} {position : Nat} {chain : JoinChain}
    {rest : List Lexeme} (selects : query.statement.SelectsChain position chain rest)
    (plain : ∀ part ∈ (chain.head.lexemes :: chain.joins.map JoinSpelling.lexemes).dropLast,
      ¬ EndsInSide part)
    (known : ∀ table ∈ chain.head :: chain.joined, (table.relation? schema).isSome) :
    (∃ scope, Scope.ofStatement schema query.statement = .ok scope ∧
      chain.Fills schema scope.statementEntries) ∨
    ∃ finding, Scope.ofStatement schema query.statement = .error finding ∧
      query.statement.FailsInside schema finding := by
  have levelled : query.statement.Levelled := by
    rw [query.statement_eq]
    exact Statement.ofLexemes_levelled _
  obtain ⟨relation, head⟩ := Option.isSome_iff_exists.mp (known chain.head (by simp))
  have others : ∀ join ∈ chain.joins, (join.table.relation? schema).isSome := fun join member =>
    known join.table (List.mem_cons_of_mem _ (List.mem_map.mpr ⟨join, member, rfl⟩))
  have effect := selects.changes levelled plain head others {}
  cases built : Scope.ofStatement schema query.statement with
  | ok scope =>
    unfold Scope.ofStatement at built
    rw [built] at effect
    have entries : scope.statementEntries =
        chain.joins.foldl (JoinSpelling.extend schema) [chain.head.entry relation false] := effect
    exact Or.inl ⟨scope, rfl, entries ▸ .run head others⟩
  | error finding =>
    unfold Scope.ofStatement at built
    rw [built] at effect
    exact Or.inr ⟨finding, rfl, effect⟩

/-- A chain with sides of several kinds; the full join of the subquery has no part in it. -/
theorem Query.scope_of_mixed_chain :
    let schema : Schema := ⟨[⟨"a", [⟨"x", .scalar .int4, false⟩]⟩,
      ⟨"b", [⟨"y", .scalar .int4, false⟩]⟩, ⟨"c", [⟨"z", .scalar .int4, false⟩]⟩], []⟩
    let query : Query := ⟨0, ⟨⟨"q", .implicit, .many, false⟩, ⟨4, 5⟩, [], none⟩, ⟨3, 5⟩,
      ("select * from s.a k left outer join b right join c on " ++
        "k.x = (select 1 from b full join c on true) cross join a as e;\n").toList, ⟨6, 123⟩⟩
    ∃ chain rest, query.statement.SelectsChain 2 chain rest ∧
      (∀ part ∈ (chain.head.lexemes :: chain.joins.map JoinSpelling.lexemes).dropLast,
        ¬ EndsInSide part) ∧
      (∀ table ∈ chain.head :: chain.joined, (table.relation? schema).isSome) ∧
      ((∃ scope, Scope.ofStatement schema query.statement = .ok scope ∧
          chain.Fills schema scope.statementEntries) ∨
        ∃ finding, Scope.ofStatement schema query.statement = .error finding ∧
          query.statement.FailsInside schema finding) ∧
      (Scope.ofStatement schema query.statement).toOption.map
          (·.statementEntries.map fun entry => (entry.relation.name, entry.nullable)) =
        some [("a", true), ("b", true), ("c", false), ("a", false)] := by
  let a : TableSpelling :=
    { path := [⟨.ident, "s"⟩], name := ⟨.ident, "a"⟩
      aliasName := .bare ⟨.ident, "k"⟩ rfl (Lexeme.isOneOf_of_letter rfl (by simp))
      words := by simpa using by decide +kernel
      begins := by rintro _ ⟨⟩; exact Lexeme.isOneOf_of_letter rfl (.refl _) }
  let b := TableSpelling.single ⟨.ident, "b"⟩ rfl (Lexeme.isOneOf_of_letter rfl (.refl _))
  let c := TableSpelling.single ⟨.ident, "c"⟩ rfl (Lexeme.isOneOf_of_letter rfl (.refl _))
  let e : TableSpelling :=
    { TableSpelling.single ⟨.ident, "a"⟩ rfl (Lexeme.isOneOf_of_letter rfl (.refl _)) with
      aliasName := .introduced ⟨.ident, "as"⟩ ⟨.ident, "e"⟩ (by decide +kernel) rfl
        (Lexeme.isOneOf_of_letter rfl (by decide)) }
  let condition : JoinCondition := ⟨⟨.ident, "on"⟩, by decide +kernel, [⟨.ident, "k"⟩, ⟨.dot, "."⟩,
    ⟨.ident, "x"⟩, ⟨.eq, "="⟩] ++ ⟨.parenOpen, "("⟩ :: ([⟨.ident, "select"⟩, ⟨.number, "1"⟩,
    ⟨.ident, "from"⟩, ⟨.ident, "b"⟩, ⟨.ident, "full"⟩, ⟨.ident, "join"⟩, ⟨.ident, "c"⟩,
    ⟨.ident, "on"⟩, ⟨.ident, "true"⟩] ++ ⟨.parenClose, ")"⟩ :: []),
    (Tableless.of_words (by decide +kernel)).append
      fun _ => .group rfl rfl (by decide +kernel) (.nil _)⟩
  let left : JoinSpelling :=
    { words := [⟨.ident, "left"⟩, ⟨.ident, "outer"⟩], keyword := ⟨.ident, "join"⟩, table := b
      spelled := by decide +kernel
      kinds := ⟨[], by simp, ["left", "outer"], by simp [joinSides],
        .cons (by decide +kernel) (.cons (by decide +kernel) .nil)⟩ }
  let right : JoinSpelling :=
    { words := [⟨.ident, "right"⟩], keyword := ⟨.ident, "join"⟩, table := c, spelled := by decide +kernel
      condition := some condition
      kinds := ⟨[], by simp, ["right"], by simp [joinSides], .cons (by decide +kernel) .nil⟩ }
  let cross : JoinSpelling :=
    { words := [⟨.ident, "cross"⟩], keyword := ⟨.ident, "join"⟩, table := e, spelled := by decide +kernel
      kinds := ⟨[], by simp, ["cross"], by simp [joinSides], .cons (by decide +kernel) .nil⟩ }
  intro schema query
  let lexemes : List Lexeme :=
    [⟨.ident, "select"⟩, ⟨.star, "*"⟩, ⟨.ident, "from"⟩, ⟨.ident, "s"⟩, ⟨.dot, "."⟩, ⟨.ident, "a"⟩,
    ⟨.ident, "k"⟩, ⟨.ident, "left"⟩, ⟨.ident, "outer"⟩, ⟨.ident, "join"⟩, ⟨.ident, "b"⟩,
    ⟨.ident, "right"⟩, ⟨.ident, "join"⟩, ⟨.ident, "c"⟩, ⟨.ident, "on"⟩, ⟨.ident, "k"⟩, ⟨.dot, "."⟩,
    ⟨.ident, "x"⟩, ⟨.eq, "="⟩, ⟨.parenOpen, "("⟩, ⟨.ident, "select"⟩, ⟨.number, "1"⟩,
    ⟨.ident, "from"⟩, ⟨.ident, "b"⟩, ⟨.ident, "full"⟩, ⟨.ident, "join"⟩, ⟨.ident, "c"⟩,
    ⟨.ident, "on"⟩, ⟨.ident, "true"⟩, ⟨.parenClose, ")"⟩, ⟨.ident, "cross"⟩, ⟨.ident, "join"⟩,
    ⟨.ident, "a"⟩, ⟨.ident, "as"⟩, ⟨.ident, "e"⟩, ⟨.semicolon, ";"⟩]
  have lexed : query.statement = .ofLexemes lexemes :=
    query.statement_eq.trans (congrArg _ (by decide +kernel))
  rw [lexed]
  have others : ∀ i < (Statement.ofLexemes lexemes).size, i < 2 ∨ 35 ≤ i →
      (Statement.ofLexemes lexemes).isTop i = true →
      (Statement.ofLexemes lexemes).isOneOf i ["from", "join", "update", "into"] = false := by
    decide +kernel
  have selects : (Statement.ofLexemes lexemes).SelectsChain 2 ⟨a, [left, right, cross]⟩
      [⟨.semicolon, ";"⟩] :=
    ⟨by decide +kernel, by decide +kernel, rfl, by rintro _ ⟨⟩; rfl, by rintro _ ⟨⟩; simp, others⟩
  have plain : ∀ part ∈ (a.lexemes :: [left, right, cross].map JoinSpelling.lexemes).dropLast,
      ¬ EndsInSide part := by decide +kernel
  have known : ∀ table ∈ [a, b, c, e], (table.relation? schema).isSome := by decide +kernel
  exact ⟨⟨a, [left, right, cross]⟩, _, selects, plain, known,
    lexed ▸ Query.scope_of_chain (lexed ▸ selects) plain known, by decide +kernel⟩

/-- The last part of the name before `JOIN` is taken for its side: a row always has the table of an
inner join, but it is nullable. -/
theorem Query.name_taken_for_side :
    let schema : Schema := ⟨[⟨"left", [⟨"x", .scalar .int4, false⟩]⟩,
      ⟨"b", [⟨"y", .scalar .int4, false⟩]⟩], []⟩
    let query : Query := ⟨0, ⟨⟨"q", .implicit, .many, false⟩, ⟨4, 5⟩, [], none⟩, ⟨3, 5⟩,
      "select * from s.left join b on true;\n".toList, ⟨6, 43⟩⟩
    query ∈ (parseModule 0 "_stream" "--! q\nselect * from s.left join b on true;\n".toList).queries ∧
      ∃ chain rest, query.statement.SelectsChain 2 chain rest ∧
        (∀ table ∈ chain.head :: chain.joined, (table.relation? schema).isSome) ∧
        ¬ chain.MayLack 1 ∧
        (Scope.ofStatement schema query.statement).toOption.map
            (·.statementEntries.map fun entry => (entry.relation.name, entry.nullable)) =
          some [("left", false), ("b", true)] := by
  intro schema query
  let left : TableSpelling :=
    { path := [⟨.ident, "s"⟩], name := ⟨.ident, "left"⟩
      words := by simpa using by decide +kernel
      begins := by rintro _ ⟨⟩; exact Lexeme.isOneOf_of_letter rfl (.refl _) }
  let b := TableSpelling.single ⟨.ident, "b"⟩ rfl (Lexeme.isOneOf_of_letter rfl (.refl _))
  let join : JoinSpelling :=
    { keyword := ⟨.ident, "join"⟩, table := b, spelled := by decide +kernel
      condition := some ⟨⟨.ident, "on"⟩, by decide +kernel, [⟨.ident, "true"⟩],
        .of_words (by decide +kernel)⟩
      kinds := ⟨[], by simp, [], by simp [joinSides], .nil⟩ }
  have evaluated : (query ∈ (parseModule 0 "_stream"
        "--! q\nselect * from s.left join b on true;\n".toList).queries ∧
      (Scope.ofStatement schema query.statement).toOption.map
          (·.statementEntries.map fun entry => (entry.relation.name, entry.nullable)) =
        some [("left", false), ("b", true)]) ∧
    (query.statement.isKeyword 2 "from" = true ∧ query.statement.isTop 2 = true) ∧
    query.statement.RestAt 3 [⟨.ident, "s"⟩, ⟨.dot, "."⟩, ⟨.ident, "left"⟩,
      ⟨.ident, "join"⟩, ⟨.ident, "b"⟩, ⟨.ident, "on"⟩, ⟨.ident, "true"⟩, ⟨.semicolon, ";"⟩] ∧
    ∀ i < query.statement.size, i < 2 ∨ 10 ≤ i → query.statement.isTop i = true →
      query.statement.isOneOf i ["from", "join", "update", "into"] = false := by decide +kernel
  obtain ⟨⟨parsed, entries⟩, ⟨from_, top⟩, list, others⟩ := evaluated
  have stays : ¬ (⟨left, [join]⟩ : JoinChain).MayLack 1 := by
    rintro (⟨k, other, same, found, drops⟩ | ⟨k, other, later, found, _⟩)
    · obtain rfl : k = 0 := by omega
      cases found
      cases drops
    · obtain ⟨more, rfl⟩ := Nat.exists_eq_add_of_le' later
      cases found
  exact ⟨parsed, ⟨left, [join]⟩, _,
    ⟨from_, top, list, by rintro _ ⟨⟩; rfl, by rintro _ ⟨⟩; simp, others⟩, by decide +kernel, stays,
    entries⟩

end AnnotatedSql
