import AnnotatedSql.Proofs.Resolution.Typed

/-!
# Types of projected columns

An expression that is understood has a type that the schema offers: a literal's, a placeholder's, a
column's, a field's or that of a cast. So has every column of a projection.
-/

namespace AnnotatedSql

/-- The scope is one of the schema, and so are the types of the parameters that have one. -/
structure Surroundings.Within (env : Surroundings) : Prop where
  scope : env.scope.Within env.schema
  parameters : ∀ p ∈ env.parameters, p.type.isResolved = true → env.schema.Offers p.type

namespace Surroundings

variable {env : Surroundings}

theorem column_offered (within : env.Within) {i next : Nat} {name : ColumnName}
    {expression : Expression} (read : env.column i name next = .ok expression) :
    env.schema.Offers expression.type := by
  unfold column at read
  split at read
  next looked =>
    cases read
    exact within.scope.lookupIn looked
  next => cases read

theorem placeholder_offered (within : env.Within) {i : Nat} {expression : Expression}
    (read : env.placeholder i = .ok expression) : env.schema.Offers expression.type := by
  unfold placeholder at read
  dsimp only at read
  split at read
  next typed =>
    cases read
    obtain ⟨key, _, found⟩ := Option.bind_eq_some_iff.mp typed
    have accepted := List.find?_some found
    exact within.parameters _ (List.mem_of_find?_eq_some found) (Bool.and_eq_true_iff.mp accepted).2
  next => cases read

theorem token_offered (within : env.Within) {i : Nat} {expression : Expression}
    (read : env.token i = .ok expression) : env.schema.Offers expression.type := by
  unfold token at read
  dsimp only at read
  split at read
  · cases read
    exact .scalar _
  · cases read
    exact .scalar _
  · exact placeholder_offered within read
  · exact placeholder_offered within read
  · split at read
    · cases read
      exact .scalar _
    · split at read
      · exact column_offered within read
      · cases read
  · split at read
    · cases read
      exact .scalar _
    · split at read
      · exact column_offered within read
      · cases read
  · cases read

theorem cast_offered {type : TypeName}
    {operand : Except ExpressionFault Expression} {expression : Expression}
    (read : env.cast type operand = .ok expression) : env.schema.Offers expression.type := by
  unfold cast at read
  split at read
  · cases read
  next target named =>
    have targetOffered : env.schema.Offers target := .typeNamed named
    split at read
    · cases read
      exact targetOffered
    · cases read
      exact targetOffered
    · cases read

theorem field_offered {whole part : Expression} {i : Nat}
    (offered : env.schema.Offers whole.type) (read : env.field whole i = .ok part) :
    env.schema.Offers part.type := by
  unfold field at read
  dsimp only at read
  split at read
  next found =>
    cases read
    exact .field offered found
  next => cases read

/-- Every expression that is understood has a type of the schema. -/
theorem expressionWithin_offered (within : env.Within) {fuel lo hi : Nat}
    {expression : Expression} (read : env.expressionWithin fuel lo hi = .ok expression) :
    env.schema.Offers expression.type := by
  induction fuel generalizing lo hi expression with
  | zero => cases read
  | succ fuel ih =>
    unfold expressionWithin at read
    dsimp only at read
    split at read
    · cases read
    split at read
    · exact cast_offered read
    split at read
    · exact token_offered within read
    split at read
    · exact column_offered within read
    split at read
    · cases read
      exact .scalar _
    split at read
    · cases read
    split at read
    · cases read
    obtain ⟨whole, inner, read⟩ := bind_success read
    exact foldlM_keeps (fun part => env.schema.Offers part.type)
      (fun _ _ _ _ kept stepped => field_offered kept stepped) (ih inner) read

theorem aliased_offered (within : env.Within) {lo hi last : Nat} {expression : Expression}
    (read : env.aliased lo hi last = .ok expression) : env.schema.Offers expression.type := by
  obtain ⟨inner, understood, read⟩ := bind_success read
  have innerOffered : env.schema.Offers inner.type := expressionWithin_offered within understood
  cases read
  exact innerOffered

theorem single_offered (within : env.Within) {lo hi : Nat} {expression : Expression}
    (read : env.single lo hi = .ok expression) : env.schema.Offers expression.type := by
  unfold single at read
  dsimp only at read
  split at read
  · exact aliased_offered within read
  · split at read
    · split at read
      · exact aliased_offered within read
      · cases read
    · exact expressionWithin_offered within read

/-- Every column of an item has a type of the schema. -/
theorem item_offered (within : env.Within) {lo hi : Nat} {columns : List ResultColumn}
    (read : env.item lo hi = .ok columns) : ∀ column ∈ columns, env.schema.Offers column.type := by
  intro column member
  unfold item at read
  dsimp only at read
  split at read
  · cases read
    obtain ⟨found, listed, rfl⟩ := List.mem_map.mp member
    obtain ⟨entry, inScope, inside⟩ := List.mem_flatMap.mp listed
    exact within.scope.columns (List.mem_filter.mp inScope).1 inside
  split at read
  · split at read
    next entry answers =>
      cases read
      obtain ⟨found, inside, rfl⟩ := List.mem_map.mp member
      have inScope := List.mem_of_find?_eq_some answers
      exact within.scope.columns (List.mem_filter.mp inScope).1 inside
    next => cases read
  · split at read
    next understood =>
      cases read
      obtain rfl := List.mem_singleton.mp member
      exact single_offered within understood
    next => cases read
    next => cases read

end Surroundings

/-- Every column of a projection has a type of the schema. -/
theorem project_offered {env : Surroundings} (within : env.Within) {result : QueryResult}
    (projected : (project env).value = some result) :
    ∀ column ∈ result.columns, env.schema.Offers column.type := by
  intro column member
  unfold project at projected
  split at projected
  · cases projected
    cases member
  · dsimp only at projected
    split at projected
    · cases projected
      obtain ⟨columns, listed, inside⟩ := List.mem_flatten.mp member
      obtain ⟨outcome, succeeds, same⟩ := List.mem_filterMap.mp listed
      obtain ⟨⟨lo, hi⟩, _, rfl⟩ := List.mem_map.mp succeeds
      cases read : env.item lo hi with
      | error finding =>
        rw [read] at same
        cases same
      | ok found =>
        rw [read] at same
        cases same
        exact Surroundings.item_offered within read column inside
    · cases projected

/-- A resolution in a scope consists of typed parameters and a projection, unless either has an error. -/
theorem resolveIn_eq (schema : Schema) (s : Statement) (parameters : List Parameter)
    (scope : Scope) : resolveIn schema s parameters scope =
      let typed := typeParameters schema s scope parameters
      let projected := project ⟨schema, s, scope, typed.1⟩
      ⟨if Findings.hasErrors (typed.2 ++ projected.findings) then none
        else projected.value.map fun result => ⟨typed.1, result⟩, typed.2 ++ projected.findings⟩ := by
  unfold resolveIn
  rfl

/-- What a successful resolution in a scope consists of. -/
theorem resolveIn_success {schema : Schema} {s : Statement} {parameters : List Parameter}
    {scope : Scope} {resolution : Resolution}
    (resolves : (resolveIn schema s parameters scope).value = some resolution) :
    let typed := typeParameters schema s scope parameters
    let projected := project ⟨schema, s, scope, typed.1⟩
    Findings.hasErrors (typed.2 ++ projected.findings) = false ∧
      resolution.parameters = typed.1 ∧ projected.value = some resolution.result := by
  rw [resolveIn_eq] at resolves
  dsimp only at resolves ⊢
  split at resolves
  · cases resolves
  next clean =>
    obtain ⟨result, projected, rfl⟩ := Option.map_eq_some_iff.mp resolves
    exact ⟨by simpa using clean, rfl, projected⟩

/-- What a successful resolution consists of: an accepted binding, a scope, and a resolution in
it. -/
theorem resolve_success {schema : Schema} {style : BindingStyle} {s : Statement}
    {resolution : Resolution} (resolves : (resolve schema style s).value = some resolution) :
    Binding.Accepts style s ∧ ∃ scope, Scope.ofStatement schema s = .ok scope ∧
      (resolveIn schema s (Binding.table style s) scope).value = some resolution := by
  unfold resolve at resolves
  dsimp only at resolves
  split at resolves
  · cases resolves
  next parameters bound =>
    obtain ⟨accepts, rfl⟩ := Binding.bind_value_iff.mp bound
    split at resolves
    · cases resolves
    next scope built => exact ⟨accepts, scope, built, resolves⟩

/-- A query whose parameters are bound and whose scope is known gives its projection, unless a parameter
or the projection has an error. -/
theorem Query.resolve_in_scope {schema : Schema} {query : Query} {parameters : List Parameter}
    {scope : Scope}
    (bound : (AnnotatedSql.bind query.descriptor.bindingStyle query.statement).value =
      some parameters)
    (built : Scope.ofStatement schema query.statement = .ok scope) :
    let typed := typeParameters schema query.statement scope parameters
    let projected := project ⟨schema, query.statement, scope, typed.1⟩
    query.resolve schema =
      (if Findings.hasErrors (typed.2 ++ projected.findings) then none
        else projected.value.map fun result => ⟨query, typed.1, result⟩,
      query.reports ((AnnotatedSql.bind query.descriptor.bindingStyle query.statement).findings ++
        (typed.2 ++ projected.findings))) := by
  simp only [Query.resolve, AnnotatedSql.resolve, bound, built, resolveIn_eq]
  generalize typeParameters schema query.statement scope parameters = typed
  refine Prod.ext ?_ rfl
  dsimp only
  split
  · rfl
  · exact Option.map_map ..

/-- The stages of a query that resolves: its parameters are bound, its scope is built, and in that scope the
parameters are typed and the projection is given. -/
theorem Query.resolve_stages {schema : Schema} {query : Query} {resolved : ResolvedQuery}
    (resolves : (query.resolve schema).1 = some resolved) :
    ∃ bound scope, query.bind.value = some bound ∧
      Scope.ofStatement schema query.statement = .ok scope ∧
      (typeParameters schema query.statement scope bound).1 = resolved.parameters ∧
      (project ⟨schema, query.statement, scope, resolved.parameters⟩).value =
        some resolved.result := by
  obtain ⟨_, found⟩ := Query.resolve_eq_some_iff.mp resolves
  obtain ⟨accepts, scope, built, inScope⟩ := resolve_success found
  obtain ⟨_, typed, projected⟩ := resolveIn_success inScope
  rw [← typed] at projected
  exact ⟨_, scope, Binding.bind_value_iff.mpr ⟨accepts, rfl⟩, built, typed.symm, projected⟩

/-- The result of a query that resolves is its projection in its scope. -/
theorem Query.resolve_projects {schema : Schema} {query : Query} {resolved : ResolvedQuery}
    (resolves : (query.resolve schema).1 = some resolved) :
    ∃ scope, Scope.ofStatement schema query.statement = .ok scope ∧
      (project ⟨schema, query.statement, scope, resolved.parameters⟩).value =
        some resolved.result := by
  obtain ⟨_, scope, _, built, _, projected⟩ := resolve_stages resolves
  exact ⟨scope, built, projected⟩

/-- A query resolves whose parameters are bound and typed and whose projection has no fault. -/
theorem Query.resolve_of_projection {schema : Schema} {query : Query} {scope : Scope}
    {parameters typed : List Parameter} {result : QueryResult}
    (bound : (AnnotatedSql.bind query.descriptor.bindingStyle query.statement).value = some parameters)
    (built : Scope.ofStatement schema query.statement = .ok scope)
    (types : typeParameters schema query.statement scope parameters = (typed, []))
    (projected : project ⟨schema, query.statement, scope, typed⟩ = ⟨some result, []⟩) :
    (query.resolve schema).1 = some ⟨query, typed, result⟩ := by
  simp [Query.resolve, AnnotatedSql.resolve, bound, built, resolveIn, types, projected,
    Findings.hasErrors]

end AnnotatedSql
