import AnnotatedSql.Proofs.Projection.Bare
import AnnotatedSql.Proofs.Projection.Typed
import AnnotatedSql.Proofs.Resolution.Placement
import AnnotatedSql.Proofs.Statement.Alias
import AnnotatedSql.Proofs.Statement.Items

/-!
# Projections item by item

The commas outside all parentheses make the items of a projection, and each item stands for its columns
without regard to the others. `*` stands for all columns of the tables of the statement, `q.*` for those
of one table, and any other item for one column, which goes by the alias at the end of the item if there
is one. What is wrong with an item is one error in it.
-/

namespace AnnotatedSql

namespace Surroundings

variable {env : Surroundings} {lo hi stop : Nat} {name : Name}

open Statement

/-- Several tokens are no path of names if no dot stands before the last one. -/
theorem noPath_of_last (length : lo + 1 < hi) (noDot : env.statement.is (hi - 2) .dot = false) :
    (env.statement.columnPath? lo).filter (fun (_, next) => next == hi) = none := by
  refine Option.filter_eq_none_iff.mpr fun found path ends => ?_
  obtain ⟨name, next⟩ := found
  obtain rfl := eq_of_beq ends
  rcases columnPath_last path with short | ⟨rfl, dot⟩
  · omega
  · rw [show lo + 3 - 2 = lo + 1 by omega, dot] at noDot
    cases noDot

/-- Tokens of which a word is the last, but not as part of a path or of a type, are no expression. -/
theorem expression_of_last_word (nested : env.statement.Nested) (length : lo + 1 < hi)
    (word : env.statement.isWord (hi - 1) = true) (noDot : env.statement.is (hi - 2) .dot = false)
    (noCast : env.statement.trailingCast? lo hi = none) :
    env.expression lo hi = .error .untyped := by
  have noClose : ∀ {opening}, (opening, hi - 1) ∉ env.statement.pairs := by
    intro opening paired
    rw [isWord_eq_false (nested.closes paired) rfl] at word
    cases word
  have noCount : env.statement.isCount lo hi = false := by
    refine Bool.eq_false_iff.mpr fun count => ?_
    simp only [isCount, Bool.and_eq_true] at count
    exact noClose (nested.pair_of_partner count.1.2 (eq_of_beq count.2))
  have noFields : ∀ {closing fuel}, env.statement.leadingGroup? lo hi = some closing →
      env.statement.fieldPath? hi fuel (closing + 1) = none := by
    intro closing fuel group
    refine Option.eq_none_iff_forall_ne_some.mpr fun names path => ?_
    rcases fieldPath_last path with rfl | dot
    · exact noClose (nested.pair_of_group group).1
    · rw [noDot] at dot
      cases dot
  unfold expression
  rw [show hi - lo = hi - lo - 1 + 1 by omega, expressionWithin]
  dsimp only
  rw [if_neg (by omega), noCast]
  dsimp only
  rw [if_neg (by simp; omega), noPath_of_last length noDot]
  dsimp only
  rw [noCount, if_neg (by simp)]
  split
  · rfl
  next closing group => rw [noFields group]

/-- A cast is an expression of a known form. -/
theorem expression_of_trailingCast (ends : (env.statement.trailingCast? lo hi).isSome = true) :
    env.expression lo hi ≠ .error .untyped := by
  obtain ⟨⟨cast, type⟩, trailing⟩ := Option.isSome_iff_exists.mp ends
  have bounds := trailingCast_bounds trailing
  unfold expression
  rw [show hi - lo = hi - lo - 1 + 1 by omega, expressionWithin_of_cast trailing]
  unfold Surroundings.cast
  split
  · exact nofun
  · split
    · exact nofun
    · exact nofun
    next fault other _ =>
      intro untyped
      exact other (Except.error.inj untyped)

/-- The alias at the end is the last word, and the tokens before it are read under it. -/
theorem aliased_of_trailingAlias (nested : env.statement.Nested)
    (ends : env.statement.TrailingAlias lo hi stop name) :
    env.Aliased lo hi ∧ stop = (if env.statement.hasAlias lo hi then hi - 2 else hi - 1) ∧
      env.statement.name? (hi - 1) = some name := by
  cases ends with
  | introduced length ends keyword named =>
    subst ends
    have explicit : env.statement.hasAlias lo (stop + 2) = true := by
      simp [hasAlias, keyword, isWord_of_name named, Nat.succ_le_of_lt length]
    exact ⟨Or.inl explicit, by rw [if_pos explicit]; rfl, named⟩
  | bare length ends named noClause noKeyword noPart noCast =>
    subst ends
    have word := isWord_of_name named
    have noExplicit : env.statement.hasAlias lo (stop + 1) = false := by
      refine Bool.eq_false_iff.mpr fun explicit => ?_
      simp only [hasAlias, Bool.and_eq_true, decide_eq_true_eq] at explicit
      have keyword := explicit.1.2
      rw [show stop + 1 - 2 = stop - 1 by omega, noKeyword (by omega)] at keyword
      cases keyword
    have uncast : env.statement.trailingCast? lo (stop + 1) = none := by
      refine Option.eq_none_iff_forall_ne_some.mpr fun found trailing => noCast ?_
      obtain ⟨cast, type⟩ := found
      exact ⟨cast, type, trailingCast_parts trailing⟩
    have untyped : env.expression lo (stop + 1) = .error .untyped :=
      expression_of_last_word nested (by omega) word noPart.1 uncast
    refine ⟨Or.inr ⟨?_, untyped⟩, by simp [noExplicit], named⟩
    simp [mayEndInAlias, word, noClause, noPart, Nat.succ_le_of_lt length]

/-- A last word under which the tokens before it are read is an alias at the end. -/
theorem trailingAlias_of_aliased (nested : env.statement.Nested) (aliased : env.Aliased lo hi) :
    ∃ name, env.statement.TrailingAlias lo hi
      (if env.statement.hasAlias lo hi then hi - 2 else hi - 1) name := by
  obtain ⟨name, named⟩ := aliased.word.1
  refine ⟨name, ?_⟩
  cases explicit : env.statement.hasAlias lo hi with
  | true =>
    simp only [hasAlias, Bool.and_eq_true, decide_eq_true_eq] at explicit
    obtain ⟨⟨length, keyword⟩, _⟩ := explicit
    rw [if_pos rfl]
    refine .introduced (by omega) (by omega) keyword ?_
    rwa [show hi - 2 + 1 = hi - 1 by omega]
  | false =>
    obtain ⟨mayEnd, untyped⟩ := aliased.resolve_left (by simp [explicit])
    simp only [mayEndInAlias, Bool.and_eq_true, Bool.not_eq_true', Bool.or_eq_false_iff,
      decide_eq_true_eq] at mayEnd
    obtain ⟨⟨⟨length, word⟩, noClause⟩, noPart⟩ := mayEnd
    rw [if_neg Bool.false_ne_true]
    refine .bare (by omega) (by omega) named noClause (fun before => ?_) noPart fun endsInCast => ?_
    · refine Bool.eq_false_iff.mpr fun keyword => ?_
      have long : lo + 3 ≤ hi := by omega
      have keyword : env.statement.isKeyword (hi - 2) "as" = true := keyword
      simp [hasAlias, long, keyword, word] at explicit
    · exact expression_of_trailingCast (nested.trailingCast_of_endsInCast endsInCast word) untyped

end Surroundings

/-! ## Columns of items -/

/-- The columns of rows of an entry. Each may be null if its column may or if the entry may be absent. -/
def ScopeEntry.resultColumns (entry : ScopeEntry) : List ResultColumn :=
  entry.relation.columns.map fun column =>
    ⟨column.name, column.type, column.nullable || entry.nullable⟩

namespace Surroundings

/-- The columns that the tokens from `lo` to before `hi` stand for as an item. -/
inductive ItemColumns (env : Surroundings) (lo hi : Nat) : List ResultColumn → Prop
  /-- `*`: the columns of all entries at statement level, in their order. -/
  | all (star : env.statement.isStar lo hi = true) :
      ItemColumns env lo hi (env.scope.statementEntries.flatMap ScopeEntry.resultColumns)
  /-- `q.*`: the columns of the first of these entries that goes by the qualifier. -/
  | ofEntry {qualifier : Name} {entry : ScopeEntry}
      (star : env.statement.starQualifier? lo hi = some qualifier)
      (first : env.scope.statementEntries.find? (·.answersTo qualifier) = some entry) :
      ItemColumns env lo hi entry.resultColumns
  /-- An expression under an alias. -/
  | aliased {stop : Nat} {name : Name} {expression : Expression}
      (ends : env.statement.TrailingAlias lo hi stop name)
      (read : env.expression lo stop = .ok expression) :
      ItemColumns env lo hi [⟨name.text, expression.type, expression.nullable⟩]
  /-- An expression that ends in no alias. -/
  | plain {expression : Expression} (noStar : env.statement.isStar lo hi = false)
      (unqualified : env.statement.starQualifier? lo hi = none)
      (unaliased : ∀ stop name, ¬env.statement.TrailingAlias lo hi stop name)
      (read : env.expression lo hi = .ok expression) :
      ItemColumns env lo hi [⟨expression.name, expression.type, expression.nullable⟩]

variable {env : Surroundings} {lo hi : Nat} {columns : List ResultColumn}

/-- An item that is no star gives the column of its expression. -/
theorem item_single_iff (noStar : env.statement.isStar lo hi = false)
    (unqualified : env.statement.starQualifier? lo hi = none) :
    env.item lo hi = .ok columns ↔ ∃ expression, env.single lo hi = .ok expression ∧
      columns = [⟨expression.name, expression.type, expression.nullable⟩] := by
  rw [item_of_single noStar unqualified]
  split
  next expression read =>
    rw [read]
    exact ⟨fun same => ⟨_, rfl, (Except.ok.inj same).symm⟩, by rintro ⟨_, ⟨⟩, rfl⟩; rfl⟩
  next failed =>
    rw [failed]
    exact ⟨nofun, by rintro ⟨_, ⟨⟩, _⟩⟩
  next untyped =>
    rw [untyped]
    exact ⟨nofun, by rintro ⟨_, ⟨⟩, _⟩⟩

/-- An expression under an alias is the expression with another name. -/
theorem aliased_iff {stop last : Nat} {name : Name} {expression : Expression}
    (named : env.statement.name? last = some name) :
    env.aliased lo stop last = .ok expression ↔
      ∃ inner, env.expression lo stop = .ok inner ∧ expression = { inner with name := name.text } := by
  unfold aliased
  rw [named]
  cases env.expression lo stop with
  | ok inner => exact ⟨fun same => ⟨inner, rfl, (Except.ok.inj same).symm⟩, by rintro ⟨_, ⟨⟩, rfl⟩; rfl⟩
  | error fault => exact ⟨nofun, by rintro ⟨_, ⟨⟩, _⟩⟩

theorem map_ofFound_columns (entry : ScopeEntry) :
    entry.columns.map ResultColumn.ofFound = entry.resultColumns := List.map_map

/-- An item gives exactly the columns that it stands for. -/
theorem item_iff (nested : env.statement.Nested) :
    env.item lo hi = .ok columns ↔ env.ItemColumns lo hi columns := by
  have all : ((env.scope.statementEntries.flatMap ScopeEntry.columns).map ResultColumn.ofFound) =
      env.scope.statementEntries.flatMap ScopeEntry.resultColumns := by
    rw [List.map_flatMap]
    exact List.flatMap_congr fun entry _ => map_ofFound_columns entry
  constructor
  · intro gives
    cases star : env.statement.isStar lo hi with
    | true =>
      rw [item_of_star star, all] at gives
      cases gives
      exact .all star
    | false =>
      cases qualified : env.statement.starQualifier? lo hi with
      | some qualifier =>
        rw [item_of_starQualifier qualified] at gives
        split at gives
        next entry first =>
          rw [map_ofFound_columns] at gives
          cases gives
          exact .ofEntry qualified first
        · cases gives
      | none =>
        obtain ⟨expression, read, rfl⟩ := (item_single_iff star qualified).mp gives
        by_cases aliased : env.Aliased lo hi
        · obtain ⟨name, ends⟩ := trailingAlias_of_aliased nested aliased
          rw [single_of_aliased aliased,
            aliased_iff (aliased_of_trailingAlias nested ends).2.2] at read
          obtain ⟨inner, read, rfl⟩ := read
          have columns := ItemColumns.aliased ends read
          exact columns
        · rw [single_of_not_aliased aliased] at read
          exact .plain star qualified
            (fun _ _ ends => aliased (aliased_of_trailingAlias nested ends).1) read
  · intro columns
    cases columns with
    | all star => rw [item_of_star star, all]
    | ofEntry star first => rw [item_of_starQualifier star, first, ← map_ofFound_columns]
    | aliased ends read =>
      obtain ⟨aliased, rfl, named⟩ := aliased_of_trailingAlias nested ends
      rw [item_single_iff aliased.word.2.1 aliased.word.2.2, single_of_aliased aliased]
      exact ⟨_, (aliased_iff named).mpr ⟨_, read, rfl⟩, rfl⟩
    | plain noStar unqualified unaliased read =>
      rw [item_single_iff noStar unqualified, single_of_not_aliased fun aliased => ?_]
      · exact ⟨_, read, rfl⟩
      · obtain ⟨name, ends⟩ := trailingAlias_of_aliased nested aliased
        exact unaliased _ _ ends

end Surroundings

/-! ## Errors of items -/

/-- The finding points at tokens from `lo` on and before `hi`. -/
def Finding.Inside (finding : Finding) (lo hi : Nat) : Prop :=
  ∃ first last, finding.place = .tokens first last ∧ lo ≤ first ∧ last ≤ hi

namespace Surroundings

variable {env : Surroundings} {lo hi : Nat} {finding : Finding}

/-- An expression before which no path goes on fails in its own tokens. -/
theorem FaultIn.inside (nested : env.statement.Nested) (paired : env.statement.Paired)
    (fault : env.FaultIn lo hi finding) (noDot : env.statement.is hi .dot = false) :
    finding.Inside lo hi := by
  induction fault with
  | @column lo hi next name fault path whole =>
    refine ⟨lo, next, rfl, Nat.le_refl _, ?_⟩
    rcases whole with rfl | rfl
    · rcases Statement.columnPath_last path with short | ⟨_, dot⟩
      · omega
      · rw [dot] at noDot
        cases noDot
    · exact Nat.le_refl _
  | type trailing =>
    obtain ⟨bounds, _, _, named, ends⟩ := Statement.trailingCast_parts trailing
    have begins := Statement.typeName_lo named
    exact ⟨_, _, rfl, by omega, by omega⟩
  | @field lo hi closing fuel i names composite name group path member =>
    have bounds := (fieldPath_inside path).2 i member
    have after := (paired lo closing (nested.pair_of_group group).1).1
    exact ⟨i, i + 1, rfl, by omega, by omega⟩
  | operand trailing _ ih =>
    obtain ⟨bounds, isCast, _⟩ := Statement.trailingCast_parts trailing
    obtain ⟨first, last, same, begins, ends⟩ := ih (Statement.is_eq_false isCast (by simp))
    exact ⟨first, last, same, begins, by omega⟩
  | group leading _ ih =>
    obtain ⟨pair, before⟩ := nested.pair_of_group leading
    obtain ⟨first, last, same, begins, ends⟩ :=
      ih (Statement.is_eq_false (nested.closes pair) (by simp))
    exact ⟨first, last, same, by omega, by omega⟩

/-- So does an item. -/
theorem ItemFault.inside (nested : env.statement.Nested) (paired : env.statement.Paired)
    (fault : env.ItemFault lo hi finding) (noDot : env.statement.is hi .dot = false) :
    finding.Inside lo hi := by
  cases fault with
  | qualifier star =>
    obtain ⟨rfl, _⟩ := Statement.starQualifier_parts star
    exact ⟨lo, lo + 1, rfl, Nat.le_refl _, by omega⟩
  | expression stops fault =>
    rcases stops with rfl | ⟨before, word⟩
    · exact fault.inside nested paired noDot
    · have noDot : env.statement.is _ .dot = false := Bool.eq_false_iff.mpr fun dot => by
        rw [Statement.isWord_eq_false dot rfl] at word
        cases word
      obtain ⟨first, last, same, begins, ends⟩ := fault.inside nested paired noDot
      exact ⟨first, last, same, begins, by omega⟩
  | untyped => exact ⟨lo, hi, rfl, Nat.le_refl _, Nat.le_refl _⟩

/-- What is found of the tokens from `lo` to before `hi` as an item: nothing if they stand for columns,
and otherwise one error, at tokens of the item. -/
inductive ItemJudged (env : Surroundings) (lo hi : Nat) : List Finding → Prop
  | sound {columns : List ResultColumn} (gives : env.ItemColumns lo hi columns) : ItemJudged env lo hi []
  | faulty {finding : Finding} (columnless : ∀ columns, ¬env.ItemColumns lo hi columns)
      (isError : finding.isError = true) (inside : finding.Inside lo hi) :
      ItemJudged env lo hi [finding]

theorem ItemJudged.eq_nil_iff {faults : List Finding} (judged : env.ItemJudged lo hi faults) :
    faults = [] ↔ ∃ columns, env.ItemColumns lo hi columns := by
  cases judged with
  | sound gives => exact iff_of_true rfl ⟨_, gives⟩
  | faulty columnless => exact iff_of_false nofun fun ⟨columns, gives⟩ => columnless columns gives

/-- What is wrong with an item is judged by what it stands for. -/
theorem fault_judged (nested : env.statement.Nested) (paired : env.statement.Paired)
    (begins : lo < env.statement.size) (ends : hi ≤ env.statement.size)
    (noDot : env.statement.is hi .dot = false) :
    env.ItemJudged lo hi (env.fault? (lo, hi)).toList := by
  unfold fault?
  dsimp only
  cases outcome : env.item lo hi with
  | ok columns => exact .sound ((item_iff nested).mp outcome)
  | error finding =>
    have fault := item_failed outcome
    refine .faulty (fun columns gives => ?_) (fault.fatal paired begins ends).isError
      (fault.inside nested paired noDot)
    rw [(item_iff nested).mpr gives] at outcome
    cases outcome

/-! ## Projections -/

/-- A projection finds what there is to find of its items, one after another. -/
theorem project_judged (levelled : env.statement.Levelled) (paired : env.statement.Paired)
    (ranged : env.statement.projectionRange? = some (lo, hi)) :
    (project env).findings =
        (env.statement.topItems lo hi).flatMap (fun item => (env.fault? item).toList) ∧
      ∀ item ∈ env.statement.topItems lo hi,
        env.ItemJudged item.1 item.2 (env.fault? item).toList := by
  have listed := levelled.projectionItems_eq ranged
  constructor
  · rw [project_items listed]
    exact List.filterMap_eq_flatMap_toList ..
  · intro item member
    have bounds := Statement.projectionItems_bounds listed member
    exact fault_judged levelled.toNested paired bounds.1 bounds.2
      (Statement.item_not_dot ranged member)

/-- It has a result exactly if each item stands for columns, and these are the columns of the result. -/
theorem project_columns (levelled : env.statement.Levelled) (paired : env.statement.Paired)
    (ranged : env.statement.projectionRange? = some (lo, hi)) :
    ((project env).value.isSome = true ↔
        ∀ item ∈ env.statement.topItems lo hi, ∃ columns, env.ItemColumns item.1 item.2 columns) ∧
      ∀ result, (project env).value = some result → ∃ columns : Nat × Nat → List ResultColumn,
        (∀ item ∈ env.statement.topItems lo hi, env.ItemColumns item.1 item.2 (columns item)) ∧
          result = .rows ((env.statement.topItems lo hi).flatMap columns) := by
  have listed := levelled.projectionItems_eq ranged
  obtain ⟨found, judged⟩ := project_judged levelled paired ranged
  constructor
  · have clean : (project env).value.isSome = true ↔
        ∀ item ∈ env.statement.topItems lo hi, (env.fault? item).toList = [] := by
      rw [project_items listed, Option.isSome_ite, List.isEmpty_iff, List.filterMap_eq_nil_iff]
      simp only [Option.toList_eq_nil_iff]
    exact clean.trans (forall₂_congr fun item member => (judged item member).eq_nil_iff)
  · intro result projected
    obtain ⟨columns, gives, same⟩ := project_rows listed projected
    exact ⟨columns, fun item member => (item_iff levelled.toNested).mp (gives item member), same⟩

end Surroundings

/-- The query resolves item by item, with its projection list from token `lo` to before `hi`, once its
parameters are typed, with what is found of them. -/
structure Query.ResolvesItemwise (query : Query) (env : Surroundings) (typing : List Finding)
    (lo hi : Nat) : Prop where
  /-- It resolves if typing finds no error and each item stands for columns. -/
  resolves_iff : (query.resolve env.schema).1.isSome = true ↔ Findings.hasErrors typing = false ∧
    ∀ item ∈ env.statement.topItems lo hi, ∃ columns, env.ItemColumns item.1 item.2 columns
  /-- It then gives the columns of the items, one item after another. -/
  columns : ∀ resolved, (query.resolve env.schema).1 = some resolved →
    ∃ columns : Nat × Nat → List ResultColumn,
      (∀ item ∈ env.statement.topItems lo hi, env.ItemColumns item.1 item.2 (columns item)) ∧
        resolved.result = .rows ((env.statement.topItems lo hi).flatMap columns)
  /-- After what is found of its parameters there is one error for each item that stands for no columns,
  and none for any other. -/
  reports : ∃ faults : Nat × Nat → List Finding,
    (query.resolve env.schema).2 = query.reports
      ((AnnotatedSql.bind query.descriptor.bindingStyle query.statement).findings ++
        (typing ++ (env.statement.topItems lo hi).flatMap faults)) ∧
    ∀ item ∈ env.statement.topItems lo hi, env.ItemJudged item.1 item.2 (faults item)

/-- A query that gives its projection resolves item by item. -/
theorem Query.resolvesItemwise_of_project {query : Query} {env : Surroundings}
    {typing : List Finding} {lo hi : Nat} (levelled : env.statement.Levelled)
    (paired : env.statement.Paired) (ranged : env.statement.projectionRange? = some (lo, hi))
    (resolves : query.resolve env.schema =
      (if Findings.hasErrors (typing ++ (project env).findings) then none
        else (project env).value.map fun result => ⟨query, env.parameters, result⟩,
      query.reports ((AnnotatedSql.bind query.descriptor.bindingStyle query.statement).findings ++
        (typing ++ (project env).findings)))) : query.ResolvesItemwise env typing lo hi := by
  obtain ⟨found, judged⟩ := Surroundings.project_judged levelled paired ranged
  obtain ⟨succeeds, columns⟩ := Surroundings.project_columns levelled paired ranged
  have projects : ∀ resolved, (query.resolve env.schema).1 = some resolved →
      Findings.hasErrors (typing ++ (project env).findings) = false ∧
        (project env).value = some resolved.result := by
    intro resolved given
    rw [resolves] at given
    dsimp only at given
    split at given
    · cases given
    next clean =>
      obtain ⟨result, projected, rfl⟩ := Option.map_eq_some_iff.mp given
      exact ⟨Bool.eq_false_iff.mpr clean, projected⟩
  constructor
  · constructor
    · intro resolved
      obtain ⟨resolved, given⟩ := Option.isSome_iff_exists.mp resolved
      obtain ⟨clean, projected⟩ := projects resolved given
      rw [Surroundings.project_findings projected, List.append_nil] at clean
      exact ⟨clean, succeeds.mp (by rw [projected]; rfl)⟩
    · rintro ⟨clean, sound⟩
      obtain ⟨result, projected⟩ := Option.isSome_iff_exists.mp (succeeds.mpr sound)
      rw [resolves, Surroundings.project_findings projected, List.append_nil, clean, projected]
      rfl
  · exact fun resolved given => columns resolved.result (projects resolved given).2
  · exact ⟨fun item => (env.fault? item).toList, by rw [resolves, found], judged⟩

/-- A query with a projection list gives the columns of its items, one item after another, or one error
for each item that stands for no columns. -/
theorem Query.resolve_itemwise {schema : Schema} {query : Query} {parameters : List Parameter}
    {scope : Scope} {lo hi : Nat}
    (bound : (AnnotatedSql.bind query.descriptor.bindingStyle query.statement).value =
      some parameters)
    (built : Scope.ofStatement schema query.statement = .ok scope)
    (ranged : query.statement.projectionRange? = some (lo, hi)) :
    let typed := typeParameters schema query.statement scope parameters
    query.ResolvesItemwise ⟨schema, query.statement, scope, typed.1⟩ typed.2 lo hi :=
  Query.resolvesItemwise_of_project (Statement.ofLexemes_levelled _) (Statement.ofLexemes_paired _)
    ranged (Query.resolve_in_scope bound built)

/-- Items of each sort, and a list in which all items but one have an error. -/
theorem Query.resolve_itemwise_sorts :
    let schema : Schema := ⟨[⟨"p", [⟨"n", .scalar .int4, false⟩,
      ⟨"h", .composite "home" [⟨"zip", .scalar .text⟩], true⟩]⟩], []⟩
    let sound : Query := ⟨0, ⟨⟨"q", .implicit, .many, false⟩, ⟨4, 5⟩, [], none⟩, ⟨3, 5⟩,
      ("select *, p.*, (p.h).zip code, count(*) as \"n, m\", n::double precision " ++
        "from p;\n").toList, ⟨6, 85⟩⟩
    let faulty : Query := ⟨0, ⟨⟨"q", .implicit, .many, false⟩, ⟨4, 5⟩, [], none⟩, ⟨3, 5⟩,
      "select nope, n, n + 1 x, q.*, n::lost y from p;\n".toList, ⟨6, 54⟩⟩
    let parameters (query : Query) := Binding.table query.descriptor.bindingStyle query.statement
    let scope (query : Query) := (Scope.ofStatement schema query.statement).toOption.getD {}
    let typed (query : Query) :=
      typeParameters schema query.statement (scope query) (parameters query)
    (((AnnotatedSql.bind .implicit sound.statement).value = some (parameters sound) ∧
          (Scope.ofStatement schema sound.statement).toOption = some (scope sound) ∧
          sound.statement.projectionRange? = some (1, 27) ∧
          (sound.resolve schema).1.map (·.columns.map fun c => (c.name, c.nullable)) =
            some [("n", false), ("h", true), ("n", false), ("h", true), ("code", true),
              ("n, m", false), ("n", false)]) ∧
        (AnnotatedSql.bind .implicit faulty.statement).value = some (parameters faulty) ∧
          (Scope.ofStatement schema faulty.statement).toOption = some (scope faulty) ∧
          faulty.statement.projectionRange? = some (1, 18) ∧
          (faulty.resolve schema).2.map (·.kind) =
            [.unknownColumn, .unsupportedExpression, .unknownRelation, .unknownType]) ∧
      sound.ResolvesItemwise ⟨schema, sound.statement, scope sound, (typed sound).1⟩ (typed sound).2
          1 27 ∧
        faulty.ResolvesItemwise ⟨schema, faulty.statement, scope faulty, (typed faulty).1⟩
          (typed faulty).2 1 18 := by
  intro schema sound faulty parameters scope typed
  have builds : ∀ {query : Query},
      (Scope.ofStatement schema query.statement).toOption = some (scope query) →
        Scope.ofStatement schema query.statement = .ok (scope query) := by
    intro query
    cases Scope.ofStatement schema query.statement with
    | ok scope => exact fun same => congrArg Except.ok (Option.some.inj same)
    | error finding => exact fun absent => nomatch absent
  refine (and_iff_left_of_imp fun ⟨⟨bound, built, ranged, _⟩, bound', built', ranged', _⟩ => ?_).mpr
    (by decide +kernel)
  exact ⟨Query.resolve_itemwise bound (builds built) ranged,
    Query.resolve_itemwise bound' (builds built') ranged'⟩

end AnnotatedSql
