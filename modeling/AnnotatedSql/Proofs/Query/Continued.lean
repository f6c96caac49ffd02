import AnnotatedSql.Proofs.Projection.Continued
import AnnotatedSql.Proofs.Query.Rewriting

/-!
# Queries that go on

A `SELECT` from some tables may be followed by a query that it is combined with, or by another
statement. The list of its columns is not touched by what follows, yet the scope is that of the
whole: a `*` in the list also gives the columns of the tables that are named after it, and an outer
join after it may make its columns null.
-/

namespace AnnotatedSql

namespace Statement

/-- The statement is one `SELECT` that has a `FROM` after its list. It does not end where a name or an
alias is to follow. -/
structure SelectsFrom (s : Statement) (verb clause : Nat) : Prop extends IsSelect s verb where
  list : s.selectListStart verb ≤ clause
  from_ : s.isKeyword clause "from" = true
  top : s.isTop clause = true
  alone : ∀ i < s.size, s.isTop i = true → s.is i .semicolon = false
  complete : s.takesName (s.size - 1) = false

/-- The list of columns has a `*`. -/
def ListsStar (s : Statement) : Prop :=
  ∃ items, s.projectionItems? = some items ∧ ∃ item ∈ items, s.isStar item.1 item.2 = true

/-- Token `i` is, outside parentheses, the word of an outer join that may leave out the tables before
it. -/
def joinsOuter (s : Statement) (i : Nat) : Bool :=
  s.isTop i && s.isKeyword i "join" && (s.isJoin i "right" || s.isJoin i "full")

variable {s t : Statement} {verb clause i : Nat}

/-- What stands directly in a query, and in no subquery, is outside parentheses. -/
theorem Levelled.isTop_of_context (levelled : t.Levelled) (inside : i < t.size)
    (direct : t.isClauseLevel i = true) (top : t.queryContext i = none) : t.isTop i = true := by
  obtain ⟨kind, found⟩ : ∃ kind, t.kind? i = some kind := by
    unfold size at inside
    simp [kind?, inside]
  unfold isClauseLevel at direct
  unfold isTop
  unfold queryContext at top
  rw [levelled.enclosers_eq found] at top
  rw [levelled.enclosing_eq found] at direct ⊢
  cases around : Nesting.outside (t.level i) kind with
  | nil => rfl
  | cons opening outer =>
    rw [around] at direct top
    have opens := List.find?_eq_none.mp top opening List.mem_cons_self
    exact absurd direct opens

/-- Outer joins at statement level are such words. -/
theorem Levelled.joinsOuter_of_absent (levelled : t.Levelled)
    (listed : .absent none ∈ t.scopeStepsAt i) : t.joinsOuter i = true := by
  obtain ⟨direct, join, top, outer⟩ := absent_of_mem listed
  rw [joinsOuter, levelled.isTop_of_context (lt_size_of_keyword join) direct top.symm, join,
    Bool.true_and, Bool.true_and, Bool.or_eq_true]
  exact outer

/-! ## The list of columns -/

namespace SelectsFrom

variable (selects : s.SelectsFrom verb clause)

include selects

/-- The list ends at the `FROM` or before it. -/
theorem listEnd : ∃ last, s.findTop? (s.selectListStart verb) s.size (s.isOneOf · selectListEnd) =
    some last := by
  have inside := lt_size_of_keyword selects.from_
  have listed : s.isOneOf clause selectListEnd = true :=
    List.any_eq_true.mpr ⟨"from", by decide, selects.from_⟩
  refine Option.isSome_iff_exists.mp (List.find?_isSome.mpr ⟨clause, ?_, ?_⟩)
  · have := selects.list
    exact List.mem_range'_1.mpr ⟨this, by omega⟩
  · rw [selects.top]
    exact listed

theorem noSemicolon : s.findTop? verb s.size (s.is · .semicolon) = none := by
  refine List.find?_eq_none.mpr fun i member found => ?_
  obtain ⟨top, semicolon⟩ := Bool.and_eq_true_iff.mp found
  have none_ := selects.alone i (lt_size_of_is semicolon) top
  exact Bool.false_ne_true (none_.symm.trans semicolon)

variable (embeds : s.Embeds 0 t)

include embeds

theorem selectListStart : t.selectListStart verb = s.selectListStart verb := by
  have inside := lt_size_of_keyword selects.select
  have keyword : ∀ {i}, i < s.size → ∀ {word}, foldCase word ∉ combiners →
      t.isKeyword (i + 1) word = s.isKeyword (i + 1) word := fun {i} before {word} other =>
    embeds.isKeyword (i := i + 1) before other
  have list := selects.list
  unfold Statement.selectListStart at list ⊢
  rw [keyword inside (show foldCase "all" ∉ combiners by simp [foldCase_eq_ofList]),
    keyword inside (show foldCase "distinct" ∉ combiners by simp [foldCase_eq_ofList])]
  cases distinct : s.isKeyword (verb + 1) "distinct" with
  | false => rfl
  | true =>
    have after := lt_size_of_keyword distinct
    rw [keyword after (show foldCase "on" ∉ combiners by simp [foldCase_eq_ofList])]
    cases on : s.isKeyword (verb + 2) "on" with
    | false => rfl
    | true =>
      have past : verb + 3 < s.size := by
        by_contra atEnd
        have last := lt_size_of_keyword on
        have before := lt_size_of_keyword selects.from_
        have alone : s.partner (verb + 3) = none := by
          cases found : s.partner (verb + 3) with
          | none => rfl
          | some other =>
            rcases embeds.inner.partner_iff.mp found with pair | pair <;>
              · have := embeds.inner.paired _ _ pair
                omega
        -- the `FROM` would be the `ON`
        have same : clause = verb + 2 := by
          rw [distinct, on, alone] at list
          split at list
          · omega
          · rw [if_pos rfl, if_pos rfl] at list
            dsimp only at list
            omega
        have spelled := foldCase_eq_of_keyword on (same ▸ selects.from_)
        simp [foldCase_eq_ofList] at spelled
      have partner : t.partner (verb + 3) = (s.partner (verb + 3)).map (· + 0) :=
        embeds.partner past
      rw [show t.partner (verb + 3) = s.partner (verb + 3) by simpa using partner]

/-- What follows leaves the list of columns as it is. -/
theorem projectionItems : t.projectionItems? = s.projectionItems? ∧
    ∃ items, s.projectionItems? = some items := by
  obtain ⟨last, ends⟩ := selects.listEnd
  have sizes := embeds.size_le
  have verbToo : t.findTop? 0 t.size
      (t.isOneOf · ["select", "insert", "update", "delete", "values"]) = some verb :=
    embeds.findTop (by omega) (fun i inside => embeds.isOneOf_inside inside _) selects.first
  have stop : s.size ≤ (t.findTop? verb t.size (t.is · .semicolon)).getD t.size := by
    cases found : t.findTop? verb t.size (t.is · .semicolon) with
    | none => exact sizes
    | some i =>
      by_contra before
      rw [Option.getD_some, Nat.not_le] at before
      have test := (Bool.and_eq_true_iff.mp (findTop_eq_some_iff.mp found).1)
      rw [embeds.isTop before, show t.is i .semicolon = s.is i .semicolon from
        embeds.is_inside before _] at test
      rw [selects.alone i before test.1] at test
      cases test.2
  have endsToo : t.findTop? (s.selectListStart verb)
      ((t.findTop? verb t.size (t.is · .semicolon)).getD t.size) (t.isOneOf · selectListEnd) =
        some last :=
    embeds.findTop stop (fun i inside => embeds.isOneOf_inside inside _) ends
  have select : t.isKeyword verb "select" = true :=
    (embeds.isKeyword_inside (lt_size_of_keyword selects.select) _).trans selects.select
  have first : s.projectionRange? = some (s.selectListStart verb, last) := by
    simp [projectionRange?, selects.first, selects.select, selects.noSemicolon, ends]
  have whole : t.projectionRange? = some (s.selectListStart verb, last) := by
    simp [projectionRange?, verbToo, select, selects.selectListStart embeds, endsToo]
  have items : t.splitCommas (s.selectListStart verb) last =
      (s.splitCommas (s.selectListStart verb) last).map (movedRange 0) :=
    embeds.splitCommas (Nat.le_of_lt (findTop_eq_some_iff.mp ends).2.2.1)
  have still : movedRange 0 = id := rfl
  rw [still, List.map_id] at items
  rw [Statement.projectionItems?, Statement.projectionItems?, first, whole]
  exact ⟨congrArg some items, _, rfl⟩

end SelectsFrom

end Statement

/-! ## The columns -/

/-- What each item adds shows in the whole. -/
theorem flatMap_append_eq_iff {α β : Type} {items : List α} {first added : α → List β} :
    (items.flatMap fun item => first item ++ added item) = items.flatMap first ↔
      ∀ item ∈ items, added item = [] := by
  have length : (items.flatMap fun item => first item ++ added item).length =
      (items.flatMap first).length + (items.flatMap added).length := by
    induction items with
    | nil => rfl
    | cons item items ih =>
      simp only [List.flatMap_cons, List.length_append, ih]
      omega
  constructor
  · intro same
    rw [same] at length
    exact List.flatMap_eq_nil_iff.mp (List.eq_nil_of_length_eq_zero (by omega))
  · intro none_
    refine List.flatMap_congr fun item member => ?_
    rw [none_ item member, List.append_nil]

/-- The rest adds to the columns exactly if it has columns for a `*`. If it adds none and leaves
nothing out, they are what they were. -/
theorem Surroundings.Continues.project {lost : Bool} {env other : Surroundings}
    (continues : env.Continues 0 lost other) {more : List ScopeEntry}
    (entries : other.scope.statementEntries =
      env.scope.statementEntries.map (ScopeEntry.raised lost) ++ more)
    {items : List (Nat × Nat)} (listed : env.statement.projectionItems? = some items)
    (listedToo : other.statement.projectionItems? = some items) {result later : QueryResult}
    (gives : (project env).value = some result) (givesToo : (project other).value = some later) :
    ∃ before after, result = .rows before ∧ later = .rows after ∧
      (after.map ResultColumn.typed = before.map ResultColumn.typed ↔
        ∀ item ∈ items, env.statement.isStar item.1 item.2 = true →
          more.flatMap ScopeEntry.columns = []) ∧
      (after.map ResultColumn.typed = before.map ResultColumn.typed → lost = false →
        after = before) := by
  obtain ⟨first, sound, rfl⟩ := Surroundings.project_rows listed gives
  obtain ⟨second, soundToo, rfl⟩ := Surroundings.project_rows listedToo givesToo
  have each := fun item member => continues.item entries
    (Statement.projectionItems_bounds listed member).2 (sound item member)
    (soundToo item member)
  have typed : ((items.flatMap second).map ResultColumn.typed = (items.flatMap first).map
      ResultColumn.typed) ↔ ∀ item ∈ items, env.statement.starColumns more item = [] := by
    rw [List.map_flatMap, List.map_flatMap, List.flatMap_congr fun item member => (each item member).1]
    simp only [List.map_append]
    rw [flatMap_append_eq_iff]
    simp only [List.map_eq_nil_iff]
  refine ⟨_, _, rfl, rfl, typed.trans (forall₂_congr fun item _ => ?_), fun same kept => ?_⟩
  · unfold Statement.starColumns
    by_cases star : env.statement.isStar item.1 item.2 = true <;> simp [star]
  · refine List.flatMap_congr fun item member => ?_
    rw [(each item member).2 kept, typed.mp same item member, List.append_nil]

namespace Query

variable {schema : Schema} {query : Query} {resolved : ResolvedQuery}

/-- A query without placeholders has no parameters. -/
theorem parameters_of_bare (bare : ∀ lexeme ∈ significant query.body, lexeme.kind.isParam = false)
    (resolves : (query.resolve schema).1 = some resolved) : resolved.parameters = [] := by
  obtain ⟨_, found⟩ := resolve_eq_some_iff.mp resolves
  obtain ⟨accepts, keys, _⟩ := resolved_parameters found
  have none_ : Binding.orderedKeys query.descriptor.bindingStyle query.statement = [] := by
    refine List.eq_nil_iff_forall_not_mem.mpr fun key member => ?_
    obtain ⟨i, stands⟩ := Statement.mem_keys.mp (accepts.mem_orderedKeys.mp member)
    obtain ⟨kind, read, param⟩ :=
      (Option.any_eq_true _ _).mp (Statement.isParam_of_paramKey stands)
    obtain ⟨lexeme, listed, rfl⟩ := Option.map_eq_some_iff.mp read
    rw [query.statement_eq] at listed
    rw [bare lexeme (List.mem_of_getElem? (by simpa [Statement.ofLexemes] using listed))] at param
    cases param
  rw [none_, List.map_eq_nil_iff] at keys
  exact keys

/-- A query that goes on has the query as a statement within it. -/
theorem embeds_of_append {longer : Query} {rest : List Lexeme}
    (balanced : Balanced (significant query.body))
    (goesOn : significant longer.body = significant query.body ++ rest)
    (begins : ∀ lexeme ∈ rest.head?, lexeme.kind = .semicolon ∨
      lexeme.isOneOf Statement.combiners = true)
    (some_ : 0 < query.statement.size)
    (complete : query.statement.takesName (query.statement.size - 1) = false) :
    query.statement.Embeds 0 longer.statement := by
  have whole : longer.statement = .ofLexemes (significant query.body ++ rest) := by
    rw [longer.statement_eq, goesOn]
  have written : longer.statement.HasAt 0 (significant query.body) := by
    rw [whole]
    exact List.prefix_append _ rest
  have levelled : longer.statement.Levelled := by
    rw [whole]
    exact Statement.ofLexemes_levelled _
  rw [query.statement_eq] at some_ complete ⊢
  refine written.embeds levelled balanced (by simp [Statement.level_zero]) (by simp) fun lexeme found => ?_
  have same : longer.statement.lexemes[(significant query.body).length - 1]? =
      (Statement.ofLexemes (significant query.body)).lexemes[(significant query.body).length - 1]? := by
    have inside : (significant query.body).length - 1 < (significant query.body).length :=
      Nat.sub_lt some_ Nat.one_pos
    rw [whole]
    simp [Statement.ofLexemes, List.getElem?_append_left inside]
  have first : lexeme ∈ rest.head? := by
    rw [whole] at found
    simpa [Statement.ofLexemes, List.getElem?_append_right, List.head?_eq_getElem?] using found
  rcases begins lexeme first with semicolon | combines
  · exact Or.inr (Or.inl semicolon)
  · exact Or.inr (Or.inr ⟨combines, (Statement.takesName_eq same).trans complete⟩)

/-- A query from tables that goes on gives rows as it did. Their columns have the same names and
types in the same order, unless the list has a `*` and tables that have columns are named after the
query. They are the same if moreover no outer join after the query leaves its tables out. -/
theorem columns_continued {longer : Query} {further : ResolvedQuery} {rest : List Lexeme}
    {verb clause : Nat} (selects : query.statement.SelectsFrom verb clause)
    (balanced : Balanced (significant query.body))
    (goesOn : significant longer.body = significant query.body ++ rest)
    (begins : ∀ lexeme ∈ rest.head?, lexeme.kind = .semicolon ∨
      lexeme.isOneOf Statement.combiners = true)
    (bare : ∀ lexeme ∈ significant longer.body, lexeme.kind.isParam = false)
    (resolves : (query.resolve schema).1 = some resolved)
    (resolvesToo : (longer.resolve schema).1 = some further) :
    ∃ before after, resolved.result = .rows before ∧ further.result = .rows after ∧
      (after.map ResultColumn.typed = before.map ResultColumn.typed ↔
        ¬(query.statement.ListsStar ∧ ∃ relation ∈
          longer.statement.tablesIn schema query.statement.size rest.length,
            relation.columns ≠ [])) ∧
      (after.map ResultColumn.typed = before.map ResultColumn.typed →
        (∀ i, query.statement.size ≤ i → longer.statement.joinsOuter i = false) →
          after = before) := by
  have inside := Statement.lt_size_of_keyword selects.select
  have embeds := embeds_of_append balanced goesOn begins (Nat.zero_lt_of_lt inside) selects.complete
  have bareToo : ∀ lexeme ∈ significant query.body, lexeme.kind.isParam = false :=
    fun lexeme member => bare lexeme (goesOn ▸ List.mem_append_left _ member)
  have length : longer.statement.size - query.statement.size = rest.length := by
    rw [longer.statement_eq, goesOn, query.statement_eq]
    simp [Statement.ofLexemes, Statement.size]
  obtain ⟨scope, built, gives⟩ := query.resolve_projects resolves
  obtain ⟨longerScope, builtToo, givesToo⟩ := longer.resolve_projects resolvesToo
  rw [parameters_of_bare bareToo resolves] at gives
  rw [parameters_of_bare bare resolvesToo] at givesToo
  obtain ⟨begun, more, beginning, extended, tables⟩ := Scope.ofStatement_continued embeds builtToo
  obtain rfl : scope = begun := Except.ok.inj (built.symm.trans beginning)
  have continues : Surroundings.Continues 0 _ ⟨schema, query.statement, scope, []⟩
      ⟨schema, longer.statement, longerScope, []⟩ :=
    ⟨embeds, rfl, ⟨rfl, rfl⟩, fun inside known => extended.lookup embeds inside known⟩
  obtain ⟨same, items, listed⟩ := selects.projectionItems embeds
  obtain ⟨before, after, rows, rowsToo, typed, equal⟩ :=
    continues.project extended.statementEntries listed (same.trans listed) gives givesToo
  rw [length] at tables
  refine ⟨before, after, rows, rowsToo, typed.trans ?_, fun alike kept => equal alike ?_⟩
  · have lists : query.statement.ListsStar ↔
        ∃ item ∈ items, query.statement.isStar item.1 item.2 = true := by
      simp [Statement.ListsStar, listed]
    have columns : (more.filter (·.context == none)).flatMap ScopeEntry.columns = [] ↔
        ¬∃ relation ∈ longer.statement.tablesIn schema query.statement.size rest.length,
          relation.columns ≠ [] := by
      rw [← tables]
      simp [ScopeEntry.columns]
    rw [lists, columns]
    constructor
    · rintro none_ ⟨⟨item, member, star⟩, some_⟩
      exact none_ item member star some_
    · intro not_ item member star some_
      exact not_ ⟨⟨item, member, star⟩, some_⟩
  · rw [length]
    refine Bool.eq_false_iff.mpr fun leaves => ?_
    obtain ⟨i, place, absent⟩ := List.mem_flatMap.mp (List.contains_iff_mem.mp leaves)
    have outer := embeds.whole.joinsOuter_of_absent absent
    rw [kept i (List.mem_range'_1.mp place).1] at outer
    cases outer

/-- The tables of a query in parentheses are not those of the statement. -/
theorem columns_continued_union :
    let schema : Schema := ⟨[⟨"a", [⟨"x", .scalar .int4, false⟩]⟩,
      ⟨"b", [⟨"y", .scalar .int4, false⟩]⟩], []⟩
    let query : Query := ⟨0, ⟨⟨"q", .implicit, .many, false⟩, ⟨4, 5⟩, [], none⟩, ⟨3, 5⟩,
      "select * from a\n".toList, ⟨6, 22⟩⟩
    let longer : Query := ⟨0, ⟨⟨"q", .implicit, .many, false⟩, ⟨4, 5⟩, [], none⟩, ⟨3, 5⟩,
      "select * from a union all (select y from b);\n".toList, ⟨6, 51⟩⟩
    ∃ resolved further rest, query.statement.SelectsFrom 0 2 ∧
      significant longer.body = significant query.body ++ rest ∧
      (query.resolve schema).1 = some resolved ∧ (longer.resolve schema).1 = some further ∧
      further.columns = [⟨"x", .scalar .int4, false⟩] ∧
      ∃ before after, resolved.result = .rows before ∧ further.result = .rows after ∧
        (after.map ResultColumn.typed = before.map ResultColumn.typed ↔
          ¬(query.statement.ListsStar ∧ ∃ relation ∈
            longer.statement.tablesIn schema query.statement.size rest.length,
              relation.columns ≠ [])) ∧
        (after.map ResultColumn.typed = before.map ResultColumn.typed →
          (∀ i, query.statement.size ≤ i → longer.statement.joinsOuter i = false) →
            after = before) := by
  intro schema query longer
  let rest : List Lexeme := [⟨.ident, "union"⟩, ⟨.ident, "all"⟩, ⟨.parenOpen, "("⟩,
    ⟨.ident, "select"⟩, ⟨.ident, "y"⟩, ⟨.ident, "from"⟩, ⟨.ident, "b"⟩, ⟨.parenClose, ")"⟩,
    ⟨.semicolon, ";"⟩]
  have evaluated : significant query.body =
        [⟨.ident, "select"⟩, ⟨.star, "*"⟩, ⟨.ident, "from"⟩, ⟨.ident, "a"⟩] ∧
      significant longer.body = significant query.body ++ rest ∧
      (query.resolve schema).1.isSome = true ∧
      (longer.resolve schema).1.map ResolvedQuery.columns = some [⟨"x", .scalar .int4, false⟩] := by
    decide +kernel
  obtain ⟨written, goesOn, some_, columns⟩ := evaluated
  have selects : query.statement.SelectsFrom 0 2 := by
    rw [query.statement_eq, written]
    exact ⟨⟨by decide +kernel, by decide +kernel⟩, by decide +kernel, by decide +kernel,
      by decide +kernel, by decide +kernel, by decide +kernel⟩
  have balanced : Balanced (significant query.body) := by
    rw [written]
    decide +kernel
  have bare : ∀ lexeme ∈ significant longer.body, lexeme.kind.isParam = false := by
    rw [goesOn, written]
    decide
  obtain ⟨resolved, resolves⟩ := Option.isSome_iff_exists.mp some_
  obtain ⟨further, resolvesToo, same⟩ := Option.map_eq_some_iff.mp columns
  exact ⟨resolved, further, rest, selects, goesOn, resolves, resolvesToo, same,
    columns_continued selects balanced goesOn (by decide +kernel) bare resolves resolvesToo⟩

/-- A `*` takes in the tables of the query after it. -/
theorem star_takes_union :
    let schema : Schema := ⟨[⟨"a", [⟨"x", .scalar .int4, false⟩]⟩,
      ⟨"b", [⟨"y", .scalar .int4, false⟩]⟩], []⟩
    let query : Query := ⟨0, ⟨⟨"q", .implicit, .many, false⟩, ⟨4, 5⟩, [], none⟩, ⟨3, 5⟩,
      "select * from a\n".toList, ⟨6, 22⟩⟩
    let longer : Query := ⟨0, ⟨⟨"q", .implicit, .many, false⟩, ⟨4, 5⟩, [], none⟩, ⟨3, 5⟩,
      "select * from a union select * from b;\n".toList, ⟨6, 45⟩⟩
    query ∈ (parseModule 0 "_stream" "--! q\nselect * from a\n".toList).queries ∧
      longer ∈ (parseModule 0 "_stream"
        "--! q\nselect * from a union select * from b;\n".toList).queries ∧
      significant longer.body = significant query.body ++ [⟨.ident, "union"⟩, ⟨.ident, "select"⟩,
        ⟨.star, "*"⟩, ⟨.ident, "from"⟩, ⟨.ident, "b"⟩, ⟨.semicolon, ";"⟩] ∧
      (query.resolve schema).1.map ResolvedQuery.columns = some [⟨"x", .scalar .int4, false⟩] ∧
      (longer.resolve schema).1.map ResolvedQuery.columns =
        some [⟨"x", .scalar .int4, false⟩, ⟨"y", .scalar .int4, false⟩] := by
  decide +kernel

end Query

end AnnotatedSql
