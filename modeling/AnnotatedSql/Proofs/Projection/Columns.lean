import AnnotatedSql.Proofs.Projection.Renamed

/-!
# Results of statements with other placeholders

With its placeholders renamed, and its names spelled in a way that no lookup notices, a statement
gives the same columns. Only a column that is named after a placeholder, or by an alias, goes by the
other name.
-/

namespace AnnotatedSql

/-- The columns that the items give in either surroundings: the one column of a placeholder goes by
the name of the changed parameter, the one of an item with an alias by the alias respelled, and those
of any other item are the same. -/
inductive ColumnsMirrored (respell : Name → Name) (change : Parameter → Parameter)
    (env other : Surroundings) : List (Nat × Nat) → List ResultColumn → List ResultColumn → Prop
  | nil : ColumnsMirrored respell change env other [] [] []
  | same {lo hi : Nat} {items : List (Nat × Nat)} {columns rest others : List ResultColumn}
      (unnamed : ∀ i, ¬env.NamedAfter lo hi i) (unaliased : ¬env.Aliased lo hi)
      (read : env.item lo hi = .ok columns) (again : other.item lo hi = .ok columns)
      (next : ColumnsMirrored respell change env other items rest others) :
      ColumnsMirrored respell change env other ((lo, hi) :: items) (columns ++ rest)
        (columns ++ others)
  | placeholder {lo hi i : Nat} {p : Parameter} {type : DataType} {nullable : Bool}
      {items : List (Nat × Nat)} {rest others : List ResultColumn}
      (named : env.NamedAfter lo hi i) (key : env.statement.paramKey? i = some p.key)
      (member : p ∈ env.parameters) (read : env.item lo hi = .ok [⟨p.name, type, nullable⟩])
      (again : other.item lo hi = .ok [⟨(change p).name, type, nullable⟩])
      (next : ColumnsMirrored respell change env other items rest others) :
      ColumnsMirrored respell change env other ((lo, hi) :: items)
        (⟨p.name, type, nullable⟩ :: rest) (⟨(change p).name, type, nullable⟩ :: others)
  | aliased {lo hi : Nat} {name : Name} {type : DataType} {nullable : Bool}
      {items : List (Nat × Nat)} {rest others : List ResultColumn}
      (aliased : env.Aliased lo hi) (word : env.statement.name? (hi - 1) = some name)
      (read : env.item lo hi = .ok [⟨name.text, type, nullable⟩])
      (again : other.item lo hi = .ok [⟨(respell name).text, type, nullable⟩])
      (next : ColumnsMirrored respell change env other items rest others) :
      ColumnsMirrored respell change env other ((lo, hi) :: items)
        (⟨name.text, type, nullable⟩ :: rest) (⟨(respell name).text, type, nullable⟩ :: others)

/-- Both statements give rows, of columns that mirror each other, or neither does. -/
inductive ResultsMirrored (respell : Name → Name) (change : Parameter → Parameter)
    (env other : Surroundings) : QueryResult → QueryResult → Prop
  | execute (none : env.statement.projectionItems? = none) :
      ResultsMirrored respell change env other .execute .execute
  | rows {items : List (Nat × Nat)} {columns others : List ResultColumn}
      (listed : env.statement.projectionItems? = some items)
      (aliases : ∀ lo hi, other.Aliased lo hi ↔ env.Aliased lo hi)
      (agree : ColumnsMirrored respell change env other items columns others) :
      ResultsMirrored respell change env other (.rows columns) (.rows others)

namespace Surroundings

/-- What one item is before and after. -/
inductive ItemRenamed (respell : Name → Name) (change : Parameter → Parameter) (env : Surroundings)
    (lo hi : Nat) :
    Except Finding (List ResultColumn) → Except Finding (List ResultColumn) → Prop
  | faulty {finding other : Finding} (kind : other.kind = finding.kind) :
      ItemRenamed respell change env lo hi (.error finding) (.error other)
  | same {columns : List ResultColumn} (unnamed : ∀ i, ¬env.NamedAfter lo hi i)
      (unaliased : ¬env.Aliased lo hi) :
      ItemRenamed respell change env lo hi (.ok columns) (.ok columns)
  | placeholder {i : Nat} {p : Parameter} {type : DataType} {nullable : Bool}
      (named : env.NamedAfter lo hi i) (key : env.statement.paramKey? i = some p.key)
      (member : p ∈ env.parameters) :
      ItemRenamed respell change env lo hi (.ok [⟨p.name, type, nullable⟩])
        (.ok [⟨(change p).name, type, nullable⟩])
  | aliased {name : Name} {type : DataType} {nullable : Bool} (aliased : env.Aliased lo hi)
      (word : env.statement.name? (hi - 1) = some name) :
      ItemRenamed respell change env lo hi (.ok [⟨name.text, type, nullable⟩])
        (.ok [⟨(respell name).text, type, nullable⟩])

section Items

variable {respell : Name → Name} {plain : Name → Prop} {rename : ParamKey → ParamKey}
  {change : Parameter → Parameter} {env other : Surroundings}

variable (renamed : Renames respell plain rename change env other)

include renamed

/-- Items have an alias alike. -/
theorem aliased_renamed {lo hi : Nat} : other.Aliased lo hi ↔ env.Aliased lo hi := by
  have untyped : other.expression lo hi = .error .untyped ↔
      env.expression lo hi = .error .untyped := by
    have agree := expression_renamed renamed lo hi
    generalize env.expression lo hi = expression at agree
    generalize other.expression lo hi = otherExpression at agree
    cases agree with
    | same alike =>
      rcases alike.cases with ⟨_, rfl, rfl⟩ | ⟨rfl, rfl⟩ | ⟨_, _, rfl, rfl, _⟩ <;> simp
    | placeholder _ _ _ _ => simp
  unfold Aliased
  rw [renamed.renames.mirrors.hasAlias, renamed.renames.mirrors.mayEndInAlias, untyped]

/-- An alias names the column, whatever it is. -/
theorem item_of_aliased {lo hi : Nat} (aliased : env.Aliased lo hi) :
    ItemRenamed respell change env lo hi (env.item lo hi) (other.item lo hi) := by
  have mirrors := renamed.renames.mirrors
  have otherAliased := (aliased_renamed renamed).mpr aliased
  obtain ⟨⟨name, named⟩, noStar, unqualified⟩ := aliased.word
  obtain ⟨_, otherNoStar, otherUnqualified⟩ := otherAliased.word
  rw [item_of_single noStar unqualified, item_of_single otherNoStar otherUnqualified,
    single_of_aliased aliased, single_of_aliased otherAliased, mirrors.hasAlias]
  generalize (if env.statement.hasAlias lo hi then hi - 2 else hi - 1) = stop
  have agree := expression_renamed renamed lo stop
  unfold Surroundings.aliased
  rw [mirrors.name, named]
  generalize env.expression lo stop = expression at agree
  generalize other.expression lo stop = otherExpression at agree
  cases agree with
  | same alike =>
    rcases alike.cases with ⟨_, rfl, rfl⟩ | ⟨rfl, rfl⟩ | ⟨_, _, rfl, rfl, kind⟩
    · exact .aliased aliased named
    · exact .faulty rfl
    · exact .faulty kind
  | placeholder _ _ _ _ => exact .aliased aliased named

/-- A placeholder that names an item is a parameter under either name. -/
theorem NamedAfter.parameter {lo hi i : Nat} (named : env.NamedAfter lo hi i) :
    ∃ p ∈ env.parameters, env.statement.paramKey? i = some p.key ∧
      env.placeholder i = .ok ⟨p.name, p.type, false⟩ ∧
      other.placeholder i = .ok ⟨(change p).name, p.type, false⟩ := by
  rcases placeholder_cases renamed i with ⟨untyped, _⟩ | found
  · obtain ⟨_, typed⟩ := named.typed
    rw [untyped] at typed
    cases typed
  · exact found

theorem NamedAfter.transfer {lo hi i : Nat} (named : env.NamedAfter lo hi i) :
    other.NamedAfter lo hi i where
  unaliased := (renamed.renames.mirrors.hasAlias lo hi).trans named.unaliased
  bare := named.bare.mirrored renamed.renames.mirrors
  typed := by
    obtain ⟨p, _, _, _, new⟩ := named.parameter renamed
    exact ⟨_, new⟩

/-- The relations that `*` asks for are the same. -/
theorem entries_renamed : other.scope.statementEntries =
    env.scope.statementEntries.map (ScopeEntry.respelled respell) := by
  rw [renamed.scope]
  unfold Scope.statementEntries Scope.respelled
  dsimp only
  rw [List.filter_map]
  rfl

/-- An expression without an alias is the same, or a placeholder that goes by the other name. -/
theorem item_of_expression (nested : env.statement.Nested) {lo hi : Nat}
    (noStar : env.statement.isStar lo hi = false)
    (unqualified : env.statement.starQualifier? lo hi = none) (unaliased : ¬env.Aliased lo hi) :
    ItemRenamed respell change env lo hi (env.item lo hi) (other.item lo hi) := by
  have mirrors := renamed.renames.mirrors
  have otherUnaliased := fun aliased => unaliased ((aliased_renamed renamed).mp aliased)
  rw [item_of_single noStar unqualified, single_of_not_aliased unaliased,
    item_of_single ((mirrors.isStar lo hi).trans noStar)
      (by rw [mirrors.starQualifier, unqualified]; rfl),
    single_of_not_aliased otherUnaliased]
  have agree := expression_renamed renamed lo hi
  have unaliasedAs : env.statement.hasAlias lo hi = false :=
    Bool.eq_false_iff.mpr fun explicit => unaliased (Or.inl explicit)
  have names : ∀ i, env.NamedAfter lo hi i → ∃ p ∈ env.parameters,
      env.statement.paramKey? i = some p.key ∧
        ∀ found, env.expression lo hi = .ok found → other.expression lo hi = .ok found →
          found.name = p.name ∧ found.name = (change p).name := by
    intro i named
    obtain ⟨p, member, key, old, new⟩ := named.parameter renamed
    refine ⟨p, member, key, fun found first second => ⟨?_, ?_⟩⟩
    · rcases named.expression nested old with ⟨_, _, same⟩ | ⟨_, same⟩
      · rw [same] at first
        cases first
        rfl
      · rw [same] at first
        cases first
    · have otherNested := nested.mirrored mirrors
      rcases (named.transfer renamed).expression otherNested new with ⟨_, _, same⟩ | ⟨_, same⟩
      · rw [same] at second
        cases second
        rfl
      · rw [same] at second
        cases second
  generalize env.expression lo hi = expression at agree names
  generalize other.expression lo hi = otherExpression at agree names
  cases agree with
  | placeholder bare key member typed => exact .placeholder ⟨unaliasedAs, bare, typed⟩ key member
  | same alike =>
    rcases alike.cases with ⟨found, rfl, rfl⟩ | ⟨rfl, rfl⟩ | ⟨_, _, rfl, rfl, kind⟩
    · by_cases named : ∃ i, env.NamedAfter lo hi i
      · obtain ⟨i, named⟩ := named
        obtain ⟨p, member, key, same⟩ := names i named
        obtain ⟨old, new⟩ := same found rfl rfl
        have renamedItem : ItemRenamed respell change env lo hi
            (.ok [⟨p.name, found.type, found.nullable⟩])
            (.ok [⟨(change p).name, found.type, found.nullable⟩]) := .placeholder named key member
        rwa [← old, ← new] at renamedItem
      · exact .same (not_exists.mp named) unaliased
    · exact .faulty rfl
    · exact .faulty kind

/-- Each item is faulty alike, or gives the same columns up to the names. -/
theorem item_renamed (nested : env.statement.Nested) (lo hi : Nat) :
    ItemRenamed respell change env lo hi (env.item lo hi) (other.item lo hi) := by
  by_cases aliased : env.Aliased lo hi
  · exact item_of_aliased renamed aliased
  have mirrors := renamed.renames.mirrors
  cases star : env.statement.isStar lo hi with
  | true =>
    have unnamed : ∀ i, ¬env.NamedAfter lo hi i := fun i named => by
      rw [named.bare.not_isStar] at star
      cases star
    rw [item_of_star star, item_of_star ((mirrors.isStar lo hi).trans star),
      entries_renamed renamed, List.flatMap_map]
    exact .same unnamed aliased
  | false =>
    cases qualified : env.statement.starQualifier? lo hi with
    | none => exact item_of_expression renamed nested star qualified aliased
    | some qualifier =>
      have unnamed : ∀ i, ¬env.NamedAfter lo hi i := fun i named => by
        rw [named.bare.starQualifier_eq_none] at qualified
        cases qualified
      have isPlain : plain qualifier :=
        renamed.names lo qualifier (Statement.starQualifier_parts qualified).2.2.2
      have answers : other.scope.statementEntries.find? (·.answersTo (respell qualifier)) =
          (env.scope.statementEntries.find? (·.answersTo qualifier)).map
            (ScopeEntry.respelled respell) := by
        rw [entries_renamed renamed, List.find?_map]
        congr 1
        refine List.find?_congr fun entry member => ?_
        have known := renamed.within.scope.entries entry (List.mem_filter.mp member).1
        exact ScopeEntry.answersTo_respelled renamed.unnoticed known isPlain
      have qualifiedToo : other.statement.starQualifier? lo hi = some (respell qualifier) := by
        rw [mirrors.starQualifier, qualified, Option.map_some]
      rw [item_of_starQualifier qualified, item_of_starQualifier qualifiedToo, answers]
      cases env.scope.statementEntries.find? (·.answersTo qualifier) with
      | none => exact .faulty rfl
      | some entry => exact .same unnamed aliased

/-! ## Projections -/

theorem items_renamed (nested : env.statement.Nested) {items : List (Nat × Nat)}
    (read : ∀ item ∈ items, env.fault? item = none) :
    ColumnsMirrored respell change env other items
      ((items.map fun (lo, hi) => env.item lo hi).filterMap Except.toOption).flatten
      ((items.map fun (lo, hi) => other.item lo hi).filterMap Except.toOption).flatten := by
  induction items with
  | nil => exact .nil
  | cons item items ih =>
    obtain ⟨lo, hi⟩ := item
    have next := ih fun item member => read item (List.mem_cons_of_mem _ member)
    have clean := read (lo, hi) List.mem_cons_self
    have agree := item_renamed renamed nested lo hi
    unfold fault? at clean
    simp only [List.map_cons, List.filterMap_cons]
    cases old : env.item lo hi with
    | error finding =>
      rw [old] at clean
      cases clean
    | ok columns =>
      rw [old] at agree
      generalize new : other.item lo hi = outcome at agree
      cases agree with
      | same unnamed unaliased => exact .same unnamed unaliased old new next
      | placeholder named key member => exact .placeholder named key member old new next
      | aliased aliased word => exact .aliased aliased word old new next

theorem fault_renamed (nested : env.statement.Nested) (item : Nat × Nat) :
    (other.fault? item).map Finding.kind = (env.fault? item).map Finding.kind := by
  have agree := item_renamed renamed nested item.1 item.2
  unfold fault?
  generalize env.item item.1 item.2 = outcome at agree
  generalize other.item item.1 item.2 = otherOutcome at agree
  cases agree with
  | faulty kind => exact congrArg some kind
  | same _ _ => rfl
  | placeholder _ _ _ => rfl
  | aliased _ _ => rfl

/-- The projection has findings of the same kinds, and columns that are renamed if there are
none. -/
theorem project_renamed (nested : env.statement.Nested) :
    (project other).findings.map Finding.kind = (project env).findings.map Finding.kind ∧
    ((project env).value = none ∧ (project other).value = none ∨
      ∃ result otherResult, (project env).value = some result ∧
        (project other).value = some otherResult ∧
        ResultsMirrored respell change env other result otherResult) := by
  have same := renamed.renames.mirrors.projectionItems
  cases listed : env.statement.projectionItems? with
  | none =>
    have otherListed := same.trans listed
    unfold project
    rw [listed, otherListed]
    exact ⟨rfl, Or.inr ⟨_, _, rfl, rfl, .execute listed⟩⟩
  | some items =>
    have kinds : (items.filterMap other.fault?).map Finding.kind =
        (items.filterMap env.fault?).map Finding.kind := by
      rw [List.map_filterMap, List.map_filterMap]
      exact List.filterMap_congr fun item _ => fault_renamed renamed nested item
    have clean : (items.filterMap other.fault?).isEmpty = (items.filterMap env.fault?).isEmpty := by
      rw [← List.isEmpty_map, kinds, List.isEmpty_map]
    rw [project_items listed, project_items (same.trans listed), clean]
    refine ⟨kinds, ?_⟩
    dsimp only
    split
    next clean =>
      have read := List.filterMap_eq_nil_iff.mp (List.isEmpty_iff.mp clean)
      exact Or.inr ⟨_, _, rfl, rfl, .rows listed (fun _ _ => aliased_renamed renamed)
        (items_renamed renamed nested read)⟩
    next => exact Or.inl ⟨rfl, rfl⟩

end Items

end Surroundings

/-! ## Resolutions in a scope -/

/-- Surroundings whose parameters were typed in them, renamed. -/
theorem Surroundings.renames_typed {respell : Name → Name} {plain : Name → Prop}
    {rename : ParamKey → ParamKey} {change : Parameter → Parameter} {schema : Schema}
    {s t : Statement} {scope : Scope} {parameters : List Parameter}
    (unnoticed : Unnoticed respell plain schema) (names : s.AllNames plain)
    (within : scope.Within schema) (renames : s.Renames respell rename t)
    (changes : ChangesKeys rename change s parameters)
    (untyped : ∀ p ∈ parameters, p.type = .unresolved) :
    Renames respell plain rename change
      ⟨schema, s, scope, (typeParameters schema s scope parameters).1⟩
      ⟨schema, t, scope.respelled respell,
        (typeParameters schema s scope parameters).1.map change⟩ := by
  have parametersOffered : ∀ p ∈ (typeParameters schema s scope parameters).1,
      p.type.isResolved = true → schema.Offers p.type := by
    intro p member known
    rcases typeParameters_offered within member with bare | offered
    · rw [untyped p bare] at known
      cases known
    · exact offered
  exact ⟨renames, changes.typed fun p member => mem_typeParameters member, unnoticed, names,
    ⟨within, parametersOffered⟩, rfl, rfl, rfl⟩

/-- A statement whose parameters are bound has findings of the same kinds once it is renamed, and the
same types and columns under the other names. -/
theorem resolveIn_renamed {respell : Name → Name} {plain : Name → Prop}
    {rename : ParamKey → ParamKey} {change : Parameter → Parameter} {schema : Schema}
    {s t : Statement} {scope : Scope} {parameters : List Parameter} (nested : s.Nested)
    (unnoticed : Unnoticed respell plain schema) (names : s.AllNames plain)
    (within : scope.Within schema) (renames : s.Renames respell rename t)
    (changes : ChangesKeys rename change s parameters)
    (untyped : ∀ p ∈ parameters, p.type = .unresolved) :
    (resolveIn schema t (parameters.map change) (scope.respelled respell)).findings.map
          Finding.kind =
        (resolveIn schema s parameters scope).findings.map Finding.kind ∧
      ((resolveIn schema s parameters scope).value = none ∧
          (resolveIn schema t (parameters.map change) (scope.respelled respell)).value = none ∨
        ∃ resolution again, (resolveIn schema s parameters scope).value = some resolution ∧
          (resolveIn schema t (parameters.map change) (scope.respelled respell)).value =
            some again ∧
          again.parameters = resolution.parameters.map change ∧
          ResultsMirrored respell change ⟨schema, s, scope, resolution.parameters⟩
            ⟨schema, t, scope.respelled respell, again.parameters⟩ resolution.result
            again.result) := by
  obtain ⟨types, kinds⟩ := typeParameters_renamed unnoticed names within renames changes
  have renamed := Surroundings.renames_typed unnoticed names within renames changes untyped
  obtain ⟨projected, outcomes⟩ := Surroundings.project_renamed renamed nested
  have allKinds :
      (resolveIn schema t (parameters.map change) (scope.respelled respell)).findings.map
          Finding.kind =
        (resolveIn schema s parameters scope).findings.map Finding.kind := by
    unfold resolveIn
    dsimp only
    rw [types, List.map_append, List.map_append, kinds, projected]
  refine ⟨allKinds, ?_⟩
  have errors := Findings.hasErrors_of_kinds allKinds
  unfold resolveIn at errors ⊢
  dsimp only at errors ⊢
  rw [errors, types]
  split
  · exact Or.inl ⟨rfl, rfl⟩
  rcases outcomes with ⟨first, second⟩ | ⟨result, otherResult, first, second, agree⟩
  · rw [first, second]
    exact Or.inl ⟨rfl, rfl⟩
  · rw [first, second]
    exact Or.inr ⟨_, _, rfl, rfl, rfl, agree⟩

end AnnotatedSql
