import AnnotatedSql.Proofs.Query.Layout
import AnnotatedSql.Proofs.Query.Mirrored
import AnnotatedSql.Proofs.Resolution.Folded

/-!
# Case of words in queries

In which case the unquoted words of a query are written does not matter. Two queries that differ in
nothing else both read like the query in small letters, so they resolve alike; only a column that is
named by an alias goes by the name as written. The tags of strings in dollar quotes are no words, and
a word that becomes one closes a string.
-/

namespace AnnotatedSql

/-- The columns that the items give: those of an item with an alias differ at most in the case of
their name, and those of any other item are the same. -/
inductive ColumnsRecased (env : Surroundings) :
    List (Nat × Nat) → List ResultColumn → List ResultColumn → Prop
  | nil : ColumnsRecased env [] [] []
  | same {lo hi : Nat} {items : List (Nat × Nat)} {columns rest others : List ResultColumn}
      (unaliased : ¬env.Aliased lo hi) (read : env.item lo hi = .ok columns)
      (next : ColumnsRecased env items rest others) :
      ColumnsRecased env ((lo, hi) :: items) (columns ++ rest) (columns ++ others)
  | aliased {lo hi : Nat} {name recased : String} {type : DataType} {nullable : Bool}
      {items : List (Nat × Nat)} {rest others : List ResultColumn}
      (aliased : env.Aliased lo hi) (folded : equalFold name recased = true)
      (read : env.item lo hi = .ok [⟨name, type, nullable⟩])
      (next : ColumnsRecased env items rest others) :
      ColumnsRecased env ((lo, hi) :: items) (⟨name, type, nullable⟩ :: rest)
        (⟨recased, type, nullable⟩ :: others)

/-- Both statements give rows, of columns that differ in the case of aliases, or neither does. -/
inductive ResultsRecased (env : Surroundings) : QueryResult → QueryResult → Prop
  | execute (none : env.statement.projectionItems? = none) : ResultsRecased env .execute .execute
  | rows {items : List (Nat × Nat)} {columns others : List ResultColumn}
      (listed : env.statement.projectionItems? = some items)
      (agree : ColumnsRecased env items columns others) :
      ResultsRecased env (.rows columns) (.rows others)

/-! ## Parameters under their own names -/

@[simp] theorem ParamKey.renamed_id : ParamKey.renamed id = id := by
  funext key
  cases key <;> rfl

@[simp] theorem BindingStyle.renamed_id (style : BindingStyle) : style.renamed id = style := by
  rcases style with _ | names | ⟨_ | _⟩ <;> simp [renamed]

@[simp] theorem Parameter.renamed_id (style : BindingStyle) : Parameter.renamed id style = id := by
  funext p
  simp [renamed]

/-! ## Results -/

namespace Surroundings

variable {env other folded : Surroundings}

/-- What the first item gives, in its own words and in small letters. -/
inductive ItemFolded (env : Surroundings) (lo hi : Nat) : List ResultColumn → List ResultColumn → Prop
  | same {columns : List ResultColumn} (unaliased : ¬env.Aliased lo hi) :
      ItemFolded env lo hi columns columns
  | aliased {name : String} {type : DataType} {nullable : Bool} (aliased : env.Aliased lo hi) :
      ItemFolded env lo hi [⟨name, type, nullable⟩] [⟨foldCase name, type, nullable⟩]

theorem first_folded {lo hi : Nat} {items : List (Nat × Nat)} {columns common : List ResultColumn}
    (nested : env.statement.Nested) (unquoted : env.statement.AllNames fun name => name.exact = false)
    (mirrored : ColumnsMirrored Name.folded id env folded ((lo, hi) :: items) columns common) :
    ∃ mine small rest smallRest, columns = mine ++ rest ∧ env.item lo hi = .ok mine ∧
      folded.item lo hi = .ok small ∧ ItemFolded env lo hi mine small ∧
      ColumnsMirrored Name.folded id env folded items rest smallRest := by
  cases mirrored with
  | same _ unaliased read again next => exact ⟨_, _, _, _, rfl, read, again, .same unaliased, next⟩
  | placeholder named _ _ read again next =>
    exact ⟨_, _, _, _, rfl, read, again, .same (named.not_aliased nested), next⟩
  | @aliased _ _ name _ _ _ _ _ aliased word read again next =>
    have small : name.folded.text = foldCase name.text := by
      simp [Name.folded, unquoted _ _ word]
    rw [small] at again
    exact ⟨_, _, _, _, rfl, read, again, .aliased aliased, next⟩

/-- Columns that are the same in small letters differ in the case of aliases. -/
theorem columns_recased (nested : env.statement.Nested) (otherNested : other.statement.Nested)
    (unquoted : env.statement.AllNames fun name => name.exact = false)
    (otherUnquoted : other.statement.AllNames fun name => name.exact = false)
    (aliases : ∀ lo hi, other.Aliased lo hi ↔ env.Aliased lo hi) {items : List (Nat × Nat)}
    {columns others common further : List ResultColumn}
    (first : ColumnsMirrored Name.folded id env folded items columns common)
    (second : ColumnsMirrored Name.folded id other folded items others further) :
    ColumnsRecased env items columns others := by
  induction items generalizing columns others common further with
  | nil =>
    cases first
    cases second
    exact .nil
  | cons item items ih =>
    obtain ⟨lo, hi⟩ := item
    obtain ⟨mine, small, rest, _, rfl, read, folds, item, next⟩ := first_folded nested unquoted first
    obtain ⟨theirs, again, others, _, rfl, _, otherFolds, otherItem, otherNext⟩ :=
      first_folded otherNested otherUnquoted second
    obtain rfl : again = small := Except.ok.inj (otherFolds.symm.trans folds)
    have later := ih next otherNext
    cases item with
    | same unaliased =>
      cases otherItem with
      | same _ => exact .same unaliased read later
      | aliased aliased => exact absurd ((aliases lo hi).mp aliased) unaliased
    | aliased aliased =>
      generalize shared : [_] = given at otherItem
      cases otherItem with
      | same unaliased => exact absurd ((aliases lo hi).mpr aliased) unaliased
      | aliased _ =>
        simp only [List.cons.injEq, ResultColumn.mk.injEq, and_true] at shared
        obtain ⟨names, rfl, rfl⟩ := shared
        exact .aliased aliased (equalFold_iff.mpr names) read later

end Surroundings

/-! ## Statements -/

/-- With its unquoted words in small letters a statement resolves alike. -/
theorem resolve_folded {schema : Schema} {found : List Lexeme} (apart : schema.ApartInCase)
    (unquoted : ∀ lexeme ∈ found, lexeme.kind ≠ .quotedIdent) (style : BindingStyle) :
    let s := Statement.ofLexemes found
    let t := Statement.ofLexemes (found.map Lexeme.folded)
    (resolve schema style t).findings.map Finding.kind =
        (resolve schema style s).findings.map Finding.kind ∧
      ((resolve schema style s).value = none ∧ (resolve schema style t).value = none ∨
        ∃ scope small resolution again, Scope.ofStatement schema s = .ok scope ∧
          Scope.ofStatement schema t = .ok small ∧
          (resolve schema style s).value = some resolution ∧
          (resolve schema style t).value = some again ∧
          again.parameters = resolution.parameters ∧
          ResultsMirrored Name.folded id ⟨schema, s, scope, resolution.parameters⟩
            ⟨schema, t, small, again.parameters⟩ resolution.result again.result) := by
  intro s t
  have mirrors := Statement.mirrors_folded found
  have renamed : Binding.RenamesNames Name.folded id style s t :=
    ⟨⟨mirrors, fun i => by simp [t, s, Statement.paramKey_folded], fun _ _ _ _ same => by
      simpa using same⟩, fun _ _ _ _ same => same⟩
  obtain ⟨kinds, outcomes⟩ := resolve_mirrored (Statement.ofLexemes_nested found)
    (unnoticed_folded apart) (Statement.allNames_unquoted unquoted) renamed
  rw [BindingStyle.renamed_id] at kinds outcomes
  refine ⟨kinds, outcomes.imp_right ?_⟩
  rintro ⟨scope, resolution, again, built, first, second, parameters, results⟩
  rw [Parameter.renamed_id] at parameters results
  rw [List.map_id] at parameters
  exact ⟨scope, _, resolution, again, built,
    Scope.ofStatement_ok (unnoticed_folded apart) mirrors built, first, second, parameters, results⟩

/-- Results of statements that are the same with their unquoted words in small letters differ in the
case of names at most. -/
theorem ResultsMirrored.recased {schema : Schema} {found others : List Lexeme}
    {scope otherScope small : Scope} {typed otherTyped smallTyped : List Parameter}
    {result otherResult shared : QueryResult}
    (unquoted : ∀ lexeme ∈ found, lexeme.kind ≠ .quotedIdent)
    (otherUnquoted : ∀ lexeme ∈ others, lexeme.kind ≠ .quotedIdent)
    (words : others.map Lexeme.folded = found.map Lexeme.folded)
    (results : ResultsMirrored Name.folded id ⟨schema, Statement.ofLexemes found, scope, typed⟩
      ⟨schema, Statement.ofLexemes (found.map Lexeme.folded), small, smallTyped⟩ result shared)
    (otherResults : ResultsMirrored Name.folded id
      ⟨schema, Statement.ofLexemes others, otherScope, otherTyped⟩
      ⟨schema, Statement.ofLexemes (found.map Lexeme.folded), small, smallTyped⟩ otherResult shared) :
    ResultsRecased ⟨schema, Statement.ofLexemes found, scope, typed⟩ result otherResult := by
  have items : (Statement.ofLexemes others).projectionItems? =
      (Statement.ofLexemes found).projectionItems? := by
    have folded := (Statement.mirrors_folded others).projectionItems
    rw [words, (Statement.mirrors_folded found).projectionItems] at folded
    exact folded.symm
  cases results with
  | execute none =>
    cases otherResults
    exact .execute none
  | rows listed aliases agree =>
    cases otherResults with
    | rows otherListed otherAliases otherAgree =>
      obtain rfl := Option.some.inj (listed.symm.trans (items.symm.trans otherListed))
      refine .rows listed ?_
      exact Surroundings.columns_recased (Statement.ofLexemes_nested found)
        (Statement.ofLexemes_nested others) (Statement.allNames_unquoted unquoted)
        (Statement.allNames_unquoted otherUnquoted)
        (fun lo hi => (otherAliases lo hi).symm.trans (aliases lo hi)) agree otherAgree

/-- Statements with the same words in any case resolve alike. -/
theorem resolve_recased {schema : Schema} {found others : List Lexeme} (apart : schema.ApartInCase)
    (unquoted : ∀ lexeme ∈ found, lexeme.kind ≠ .quotedIdent)
    (words : others.map Lexeme.folded = found.map Lexeme.folded) (style : BindingStyle) :
    let s := Statement.ofLexemes found
    let t := Statement.ofLexemes others
    (resolve schema style t).findings.map Finding.kind =
        (resolve schema style s).findings.map Finding.kind ∧
      ((resolve schema style s).value = none ∧ (resolve schema style t).value = none ∨
        ∃ scope resolution again, Scope.ofStatement schema s = .ok scope ∧
          (resolve schema style s).value = some resolution ∧
          (resolve schema style t).value = some again ∧
          again.parameters = resolution.parameters ∧
          ResultsRecased ⟨schema, s, scope, resolution.parameters⟩ resolution.result
            again.result) := by
  intro s t
  have otherUnquoted : ∀ lexeme ∈ others, lexeme.kind ≠ .quotedIdent := by
    intro lexeme member quoted
    have folded : lexeme.folded ∈ found.map Lexeme.folded := words ▸ List.mem_map_of_mem member
    obtain ⟨source, listed, same⟩ := List.mem_map.mp folded
    have kind := congrArg Lexeme.kind same
    rw [Lexeme.folded_kind, Lexeme.folded_kind, quoted] at kind
    exact unquoted source listed kind
  obtain ⟨kinds, outcomes⟩ := resolve_folded apart unquoted style
  obtain ⟨otherKinds, otherOutcomes⟩ := resolve_folded apart otherUnquoted style
  rw [words] at otherKinds otherOutcomes
  refine ⟨otherKinds.symm.trans kinds, ?_⟩
  rcases outcomes with
    ⟨failed, small⟩ | ⟨scope, small, resolution, common, built, smallBuilt, first, folds, same, results⟩
  · rcases otherOutcomes with ⟨otherFailed, _⟩ | ⟨_, _, _, _, _, _, _, impossible, _, _⟩
    · exact Or.inl ⟨failed, otherFailed⟩
    · rw [small] at impossible
      cases impossible
  · rcases otherOutcomes with ⟨_, impossible⟩ |
      ⟨otherScope, again, other, _, _, otherSmall, second, otherFolds, otherSame, otherResults⟩
    · rw [folds] at impossible
      cases impossible
    obtain rfl := Option.some.inj (folds.symm.trans otherFolds)
    obtain rfl := Except.ok.inj (smallBuilt.symm.trans otherSmall)
    exact Or.inr ⟨scope, resolution, other, built, first, second, otherSame.symm.trans same,
      results.recased unquoted otherUnquoted words otherResults⟩

/-! ## Queries -/

/-- The case of words does not matter. In a schema whose names are told apart by more than their
case, a query without quoted words resolves alike once any of its unquoted words are written in
another case: with reports of the same kinds, and to the same parameters and columns, those with an
alias under the alias as written. The other body must not close a tag that was left open. -/
theorem word_case_irrelevant {schema : Schema} {query other : Query} {recased : List Lexeme}
    (apart : schema.ApartInCase)
    (unquoted : ∀ lexeme ∈ lexemes query.body, lexeme.kind ≠ .quotedIdent)
    (descriptor : other.descriptor = query.descriptor)
    (words : recased.map Lexeme.folded = (lexemes query.body).map Lexeme.folded)
    (body : other.body = textOf recased)
    (keeps : Lexer.KeepsOpen Recased query.body other.body) :
    (other.resolve schema).2.map Report.kind = (query.resolve schema).2.map Report.kind ∧
      ((query.resolve schema).1 = none ∧ (other.resolve schema).1 = none ∨
        ∃ scope resolved again, Scope.ofStatement schema query.statement = .ok scope ∧
          (query.resolve schema).1 = some resolved ∧ (other.resolve schema).1 = some again ∧
          again.parameters = resolved.parameters ∧
          ResultsRecased ⟨schema, query.statement, scope, resolved.parameters⟩ resolved.result
            again.result) := by
  have read : lexemes other.body = recased := by
    rw [body] at keeps ⊢
    exact lexemes_recased words keeps
  have significantWords : (significant other.body).map Lexeme.folded =
      (significant query.body).map Lexeme.folded := by
    have commute : ∀ found : List Lexeme,
        (found.filter fun lexeme => !lexeme.kind.isTrivia).map Lexeme.folded =
          (found.map Lexeme.folded).filter fun lexeme => !lexeme.kind.isTrivia := by
      intro found
      rw [List.filter_map]
      simp only [Function.comp_def, Lexeme.folded_kind]
    unfold significant
    rw [commute, commute, read, words]
  have significantUnquoted : ∀ lexeme ∈ significant query.body, lexeme.kind ≠ .quotedIdent :=
    fun lexeme member => unquoted lexeme (List.mem_filter.mp member).1
  obtain ⟨kinds, outcomes⟩ := resolve_recased apart significantUnquoted significantWords
    query.descriptor.bindingStyle
  rw [← query.statement_eq, ← other.statement_eq] at kinds outcomes
  unfold Query.resolve
  rw [descriptor]
  dsimp only
  refine ⟨by rw [Query.reports_kinds, Query.reports_kinds, kinds], ?_⟩
  rcases outcomes with ⟨first, second⟩ |
    ⟨scope, resolution, again, built, first, second, parameters, results⟩
  · rw [first, second]
    exact Or.inl ⟨rfl, rfl⟩
  · exact Or.inr ⟨scope, ⟨query, resolution⟩, ⟨other, again⟩, built, by rw [first]; rfl,
      by rw [second]; rfl, parameters, results⟩

/-- A keyword, a qualifier and an alias in the other case. -/
theorem word_case_irrelevant_alias :
    let schema : Schema := ⟨[⟨"t", [⟨"n", .scalar .int4, false⟩]⟩], []⟩
    let query : Query :=
      ⟨0, ⟨⟨"q", .implicit, .many, false⟩, ⟨3, 4⟩, [], none⟩, ⟨3, 4⟩,
        "select T.n X from t".toList, ⟨5, 24⟩⟩
    let other : Query := { query with body := "Select t.N x from T".toList }
    let recased : List Lexeme := [⟨.ident, "Select"⟩, ⟨.whitespace, " "⟩, ⟨.ident, "t"⟩, ⟨.dot, "."⟩,
      ⟨.ident, "N"⟩, ⟨.whitespace, " "⟩, ⟨.ident, "x"⟩, ⟨.whitespace, " "⟩, ⟨.ident, "from"⟩,
      ⟨.whitespace, " "⟩, ⟨.ident, "T"⟩]
    schema.ApartInCase ∧ (∀ lexeme ∈ lexemes query.body, lexeme.kind ≠ .quotedIdent) ∧
      other.descriptor = query.descriptor ∧
      recased.map Lexeme.folded = (lexemes query.body).map Lexeme.folded ∧
      other.body = textOf recased ∧ Lexer.KeepsOpen Recased query.body other.body ∧
      (other.resolve schema).2.map Report.kind = (query.resolve schema).2.map Report.kind ∧
      ((query.resolve schema).1 = none ∧ (other.resolve schema).1 = none ∨
        ∃ scope resolved again, Scope.ofStatement schema query.statement = .ok scope ∧
          (query.resolve schema).1 = some resolved ∧ (other.resolve schema).1 = some again ∧
          again.parameters = resolved.parameters ∧
          ResultsRecased ⟨schema, query.statement, scope, resolved.parameters⟩ resolved.result
            again.result) := by
  intro schema query other recased
  have apart : schema.ApartInCase := by
    refine ⟨List.pairwise_singleton _ _, by simp [schema, NamesApart], fun name fields offered => ?_⟩
    exact absurd rfl (offered.not_composite (by simp [schema]) (by simp [schema]) name fields)
  have read : lexemes query.body = [⟨.ident, "select"⟩, ⟨.whitespace, " "⟩, ⟨.ident, "T"⟩,
      ⟨.dot, "."⟩, ⟨.ident, "n"⟩, ⟨.whitespace, " "⟩, ⟨.ident, "X"⟩, ⟨.whitespace, " "⟩,
      ⟨.ident, "from"⟩, ⟨.whitespace, " "⟩, ⟨.ident, "t"⟩] := by decide +kernel
  have unquoted : ∀ lexeme ∈ lexemes query.body, lexeme.kind ≠ .quotedIdent := by
    rw [read]
    decide
  have words : recased.map Lexeme.folded = (lexemes query.body).map Lexeme.folded := by
    rw [read]
    simp [recased, Lexeme.folded, foldCase, ← String.toList_inj]
  have body : other.body = textOf recased := by decide +kernel
  have keeps : Lexer.KeepsOpen Recased query.body other.body :=
    Lexer.keepsOpen_of_not_mem (by decide)
  have descriptor : other.descriptor = query.descriptor := by decide +kernel
  have outcomes := word_case_irrelevant apart unquoted descriptor words body keeps
  exact ⟨apart, unquoted, descriptor, words, body, keeps, outcomes⟩

/-- A word that becomes a tag: `$B$` is opened and left open, until the last word of the body is
written with a capital. What was a placeholder is then part of a string. -/
theorem word_case_closes_string :
    let query : Query :=
      ⟨0, ⟨⟨"p", .implicit, .many, false⟩, ⟨3, 4⟩, [], none⟩, ⟨3, 4⟩,
        "select 1 where $B$:x::int4$a$b$".toList, ⟨5, 36⟩⟩
    let other : Query := { query with body := "select 1 where $B$:x::int4$a$B$".toList }
    query ∈ (parseModule 0 "" "--!p\nselect 1 where $B$:x::int4$a$b$".toList).queries ∧
      ∃ recased : List Lexeme, Schema.ApartInCase {} ∧
      (∀ lexeme ∈ lexemes query.body, lexeme.kind ≠ .quotedIdent) ∧
      other.descriptor = query.descriptor ∧
      recased.map Lexeme.folded = (lexemes query.body).map Lexeme.folded ∧
      other.body = textOf recased ∧
      (query.resolve {}).1.map (·.parameters.length) = some 1 ∧
      (other.resolve {}).1.map (·.parameters.length) = some 0 := by
  intro query other
  have apart : Schema.ApartInCase {} := by
    refine ⟨.nil, by simp, fun name fields offered => ?_⟩
    exact absurd rfl (offered.not_composite (by simp) (by simp) name fields)
  have read : lexemes query.body = [⟨.ident, "select"⟩, ⟨.whitespace, " "⟩, ⟨.number, "1"⟩,
      ⟨.whitespace, " "⟩, ⟨.ident, "where"⟩, ⟨.whitespace, " "⟩, ⟨.garbage, "$B$"⟩,
      ⟨.namedParam, ":x"⟩, ⟨.doubleColon, "::"⟩, ⟨.ident, "int4"⟩, ⟨.garbage, "$a$"⟩,
      ⟨.ident, "b"⟩, ⟨.garbage, "$"⟩] := by decide +kernel
  refine ⟨by decide +kernel, [⟨.ident, "select"⟩, ⟨.whitespace, " "⟩, ⟨.number, "1"⟩,
      ⟨.whitespace, " "⟩, ⟨.ident, "where"⟩, ⟨.whitespace, " "⟩, ⟨.garbage, "$B$"⟩,
      ⟨.namedParam, ":x"⟩, ⟨.doubleColon, "::"⟩, ⟨.ident, "int4"⟩, ⟨.garbage, "$a$"⟩,
      ⟨.ident, "B"⟩, ⟨.garbage, "$"⟩], apart, ?_, by decide +kernel, ?_, by decide +kernel,
      by decide +kernel, by decide +kernel⟩
  · rw [read]
    decide
  · rw [read]
    simp [Lexeme.folded, foldCase, ← String.toList_inj]

end AnnotatedSql
