import AnnotatedSql.Proofs.Projection.Bare
import AnnotatedSql.Proofs.Query.Rewriting
import AnnotatedSql.Proofs.Statement.FromScan

/-!
# Everything from a list of tables

A query that selects everything from a list of tables gives the columns of the tables that the scans
read. These are all tables of the list exactly if only its last chain has joins.
-/

namespace AnnotatedSql

namespace Surroundings

variable {env : Surroundings} {lo hi : Nat} (star : env.statement.isStar lo hi = true)

include star

theorem project_of_star (alone : env.statement.projectionItems? = some [(lo, hi)]) :
    (project env).value =
      some (.rows ((env.scope.statementEntries.flatMap ScopeEntry.columns).map .ofFound)) := by
  rw [project_item alone (item_of_star star)]

end Surroundings

namespace Statement.SelectsStar

variable {s : Statement} {first : JoinChain} {more : List JoinChain} {rest : List Lexeme}
  (selects : s.SelectsStar first more rest) (levelled : s.Levelled)

include selects levelled

/-- The only item is the star. -/
theorem projectionItems : s.projectionItems? = some [(1, 2)] := by
  have atSelect := levelled.isTop_of_level
    (closesNothing_of_is (is_of_keyword selects.select) (by simp)) s.level_zero
  have atFrom := levelled.isTop_of_level
    (closesNothing_of_is (is_of_keyword selects.from_) (by simp)) selects.level_from
  have size := selects.size_eq
  have verb : s.findTop? 0 s.size
      (s.isOneOf · ["select", "insert", "update", "delete", "values"]) = some 0 :=
    findTop_eq_some_iff.mpr ⟨by simp [atSelect, isOneOf, selects.select], Nat.le_refl _, by omega,
      fun j _ before => absurd before (Nat.not_lt_zero j)⟩
  -- no semicolon stands before `FROM`, so that the list ends there
  have stop : 2 < (s.findTop? 0 s.size (s.is · .semicolon)).getD s.size := by
    cases found : s.findTop? 0 s.size (s.is · .semicolon) with
    | none => simpa using (show 2 < s.size by omega)
    | some i =>
      have semicolon := (Bool.and_eq_true_iff.mp (findTop_eq_some_iff.mp found).1).2
      by_contra early
      obtain rfl | rfl | rfl : i = 0 ∨ i = 1 ∨ i = 2 := by
        rw [Option.getD_some] at early
        omega
      · rw [is_eq_false (is_of_keyword selects.select) (by simp)] at semicolon
        cases semicolon
      · rw [is_eq_false selects.star (by simp)] at semicolon
        cases semicolon
      · rw [is_eq_false (is_of_keyword selects.from_) (by simp)] at semicolon
        cases semicolon
  have noWord : ∀ keyword, s.isKeyword 1 keyword = false := fun keyword => by
    rw [isKeyword, is_eq_false selects.star (by simp), Bool.false_and]
  have start : s.selectListStart 0 = 1 := by simp [selectListStart, noWord]
  have ends : s.findTop? 1 ((s.findTop? 0 s.size (s.is · .semicolon)).getD s.size)
      (s.isOneOf · selectListEnd) = some 2 :=
    findTop_eq_some_iff.mpr ⟨by simp [atFrom, isOneOf, selectListEnd, selects.from_], by omega, stop,
      fun j after before => by
        obtain rfl : j = 1 := by omega
        simp [isOneOf, noWord]⟩
  have range : s.projectionRange? = some (1, 2) := by
    simp [projectionRange?, verb, selects.select, start, ends]
  have star : s.kind? 1 = some .star := eq_of_beq selects.star
  rw [projectionItems?, range]
  simp [splitCommas, itemsFrom, star]

end Statement.SelectsStar

/-- Everything that is selected from a list of tables are the columns of the tables that the scans
read, and these are all tables of the list, in the order of the text, exactly if no chain but the
last has joins. -/
theorem Query.star_columns {schema : Schema} {query : Query} {resolved : ResolvedQuery}
    {first : JoinChain} {more : List JoinChain} {rest : List Lexeme}
    (selects : query.statement.SelectsStar first more rest)
    (resolves : (query.resolve schema).1 = some resolved) :
    (∃ columns, resolved.result = .rows columns ∧ columns.map ResultColumn.typed =
      ((JoinChain.read first more).filterMap (·.relation? schema)).flatMap Relation.typedColumns) ∧
    (JoinChain.read first more = JoinChain.tables (first :: more) ↔
      ∀ chain ∈ (first :: more).dropLast, chain.joins = []) := by
  refine ⟨?_, JoinChain.read_eq_tables_iff first more⟩
  have levelled : query.statement.Levelled := by
    rw [query.statement_eq]
    exact Statement.ofLexemes_levelled _
  obtain ⟨scope, built, projected⟩ := query.resolve_projects resolves
  have star : query.statement.isStar 1 2 = true := by simp [Statement.isStar, selects.star]
  have value := @Surroundings.project_of_star ⟨schema, query.statement, scope, resolved.parameters⟩
    1 2 star (selects.projectionItems levelled)
  refine ⟨_, Option.some.inj (projected.symm.trans value), ?_⟩
  rw [scope.typed_statementEntries, Scope.ofStatement_tables built, selects.tables levelled]
  rfl

/-- Two chains, of which the second joins a table. -/
theorem Query.star_columns_joined :
    let schema : Schema := ⟨[⟨"a", [⟨"x", .scalar .int4, false⟩]⟩,
      ⟨"b", [⟨"y", .scalar .int4, false⟩]⟩, ⟨"c", [⟨"z", .scalar .text, false⟩]⟩], []⟩
    let query : Query := ⟨0, ⟨⟨"q", .implicit, .many, false⟩, ⟨4, 5⟩, [], none⟩, ⟨3, 5⟩,
      "select * from c, s.a as k left join b on (k.x = y) where true;\n".toList, ⟨6, 69⟩⟩
    ∃ first more rest resolved, query.statement.SelectsStar first more rest ∧
      (query.resolve schema).1 = some resolved ∧
      resolved.columns.map ResultColumn.typed =
        [("z", .scalar .text), ("x", .scalar .int4), ("y", .scalar .int4)] ∧
      (∃ columns, resolved.result = .rows columns ∧ columns.map ResultColumn.typed =
        ((JoinChain.read first more).filterMap (·.relation? schema)).flatMap
          Relation.typedColumns) ∧
      (JoinChain.read first more = JoinChain.tables (first :: more) ↔
        ∀ chain ∈ (first :: more).dropLast, chain.joins = []) := by
  intro schema query
  let c := TableSpelling.single ⟨.ident, "c"⟩ rfl (Lexeme.isOneOf_of_letter rfl (.refl _))
  let a : TableSpelling :=
    { path := [⟨.ident, "s"⟩], name := ⟨.ident, "a"⟩
      aliasName := .introduced ⟨.ident, "as"⟩ ⟨.ident, "k"⟩ (by decide +kernel) rfl
        (Lexeme.isOneOf_of_letter rfl (by decide))
      words := by simpa using by decide +kernel
      begins := by rintro _ ⟨⟩; exact Lexeme.isOneOf_of_letter rfl (.refl _) }
  let b := TableSpelling.single ⟨.ident, "b"⟩ rfl (Lexeme.isOneOf_of_letter rfl (.refl _))
  have tableless : Tableless ⟨.ident, "on"⟩ (⟨.parenOpen, "("⟩ :: ([⟨.ident, "k"⟩, ⟨.dot, "."⟩,
      ⟨.ident, "x"⟩, ⟨.eq, "="⟩, ⟨.ident, "y"⟩] ++ ⟨.parenClose, ")"⟩ :: [])) :=
    .group rfl rfl (by decide +kernel) (.nil _)
  let join : JoinSpelling :=
    { words := [⟨.ident, "left"⟩], keyword := ⟨.ident, "join"⟩, table := b
      condition := some ⟨⟨.ident, "on"⟩, by decide +kernel, _, tableless⟩
      kinds := ⟨[], by simp, ["left"], by simp [joinSides], .cons (by decide +kernel) .nil⟩
      spelled := by decide +kernel }
  have follows : FollowsList [⟨.ident, "where"⟩, ⟨.ident, "true"⟩, ⟨.semicolon, ";"⟩] :=
    .clause (Or.inr (by decide +kernel)) (by decide +kernel)
      (.token (by simp) (by decide +kernel) (.token (by simp) (by decide +kernel) (.nil _)))
  have evaluated : (query.statement.isKeyword 0 "select" = true ∧ query.statement.is 1 .star = true ∧
      query.statement.isKeyword 2 "from" = true) ∧
    query.statement.RestAt 3 [⟨.ident, "c"⟩, ⟨.comma, ","⟩, ⟨.ident, "s"⟩, ⟨.dot, "."⟩,
      ⟨.ident, "a"⟩, ⟨.ident, "as"⟩, ⟨.ident, "k"⟩, ⟨.ident, "left"⟩, ⟨.ident, "join"⟩, ⟨.ident, "b"⟩,
      ⟨.ident, "on"⟩, ⟨.parenOpen, "("⟩, ⟨.ident, "k"⟩, ⟨.dot, "."⟩, ⟨.ident, "x"⟩, ⟨.eq, "="⟩,
      ⟨.ident, "y"⟩, ⟨.parenClose, ")"⟩, ⟨.ident, "where"⟩, ⟨.ident, "true"⟩, ⟨.semicolon, ";"⟩] ∧
    (query.resolve schema).1.map (·.columns.map ResultColumn.typed) =
      some [("z", .scalar .text), ("x", .scalar .int4), ("y", .scalar .int4)] := by decide +kernel
  obtain ⟨⟨select, star, from_⟩, list, columns⟩ := evaluated
  have selects : query.statement.SelectsStar ⟨c, []⟩ [⟨a, [join]⟩] _ :=
    ⟨select, star, from_, list, follows⟩
  obtain ⟨resolved, resolves, same⟩ := Option.map_eq_some_iff.mp columns
  exact ⟨_, _, _, resolved, selects, resolves, same, Query.star_columns selects resolves⟩

/-- The table after the comma is dropped, as the list is left at the join before it. -/
theorem Query.star_drops_table :
    let schema : Schema := ⟨[⟨"a", [⟨"x", .scalar .int4, false⟩]⟩,
      ⟨"b", [⟨"y", .scalar .int4, false⟩]⟩, ⟨"c", [⟨"z", .scalar .text, false⟩]⟩], []⟩
    let query : Query := ⟨0, ⟨⟨"q", .implicit, .many, false⟩, ⟨4, 5⟩, [], none⟩, ⟨3, 5⟩,
      "select * from a join b on a.x = b.y, c;\n".toList, ⟨6, 46⟩⟩
    query ∈ (parseModule 0 "_stream"
        "--! q\nselect * from a join b on a.x = b.y, c;\n".toList).queries ∧
      ∃ first more rest, query.statement.SelectsStar first more rest ∧
        ((JoinChain.tables (first :: more)).filterMap (·.relation? schema)).flatMap
          Relation.typedColumns =
            [("x", .scalar .int4), ("y", .scalar .int4), ("z", .scalar .text)] ∧
        (query.resolve schema).1.map (·.columns.map ResultColumn.typed) =
          some [("x", .scalar .int4), ("y", .scalar .int4)] := by
  intro schema query
  let a := TableSpelling.single ⟨.ident, "a"⟩ rfl (Lexeme.isOneOf_of_letter rfl (.refl _))
  let b := TableSpelling.single ⟨.ident, "b"⟩ rfl (Lexeme.isOneOf_of_letter rfl (.refl _))
  let c := TableSpelling.single ⟨.ident, "c"⟩ rfl (Lexeme.isOneOf_of_letter rfl (.refl _))
  have tableless : Tableless ⟨.ident, "on"⟩ [⟨.ident, "a"⟩, ⟨.dot, "."⟩, ⟨.ident, "x"⟩, ⟨.eq, "="⟩,
      ⟨.ident, "b"⟩, ⟨.dot, "."⟩, ⟨.ident, "y"⟩] := .of_words (by decide +kernel)
  let join : JoinSpelling :=
    { keyword := ⟨.ident, "join"⟩, table := b
      condition := some ⟨⟨.ident, "on"⟩, by decide +kernel, _, tableless⟩
      kinds := ⟨[], by simp, [], by simp [joinSides], .nil⟩, spelled := by decide +kernel }
  have follows : FollowsList [⟨.semicolon, ";"⟩] := .clause (Or.inl rfl) (by decide +kernel) (.nil _)
  have evaluated : (query ∈ (parseModule 0 "_stream"
        "--! q\nselect * from a join b on a.x = b.y, c;\n".toList).queries ∧
      (query.resolve schema).1.map (·.columns.map ResultColumn.typed) =
        some [("x", .scalar .int4), ("y", .scalar .int4)]) ∧
    (query.statement.isKeyword 0 "select" = true ∧ query.statement.is 1 .star = true ∧
      query.statement.isKeyword 2 "from" = true) ∧
    query.statement.RestAt 3 [⟨.ident, "a"⟩, ⟨.ident, "join"⟩, ⟨.ident, "b"⟩,
      ⟨.ident, "on"⟩, ⟨.ident, "a"⟩, ⟨.dot, "."⟩, ⟨.ident, "x"⟩, ⟨.eq, "="⟩, ⟨.ident, "b"⟩, ⟨.dot, "."⟩,
      ⟨.ident, "y"⟩, ⟨.comma, ","⟩, ⟨.ident, "c"⟩, ⟨.semicolon, ";"⟩] := by decide +kernel
  obtain ⟨⟨parsed, columns⟩, ⟨select, star, from_⟩, list⟩ := evaluated
  have tables : ((JoinChain.tables [⟨a, [join]⟩, ⟨c, []⟩]).filterMap
      (·.relation? schema)).flatMap Relation.typedColumns =
        [("x", .scalar .int4), ("y", .scalar .int4), ("z", .scalar .text)] := rfl
  exact ⟨parsed, ⟨a, [join]⟩, [⟨c, []⟩], _, ⟨select, star, from_, list, follows⟩, tables, columns⟩

end AnnotatedSql
