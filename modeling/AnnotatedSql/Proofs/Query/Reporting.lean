import AnnotatedSql.Proofs.Projection.Typed
import AnnotatedSql.Proofs.Query.Extent

/-!
# Resolution into one list of reports

The queries of a module report into one list. Here a query is resolved with such a list, which the
stages hand on to each other: each appends a report as soon as it finds something, and it has failed
if there are more errors after it than before, if it has set a mark, or if some item gave no column.
Whatever the list holds before, the reports of the query are appended and nothing else happens to it;
the query fails exactly if one of them is an error.
-/

namespace AnnotatedSql

/-- A stage that is handed the reports so far and hands them on. -/
abbrev Reporting (α : Type) := StateM (List Report) α

namespace Reporting

variable {α β : Type}

/-! ## Stages -/

/-- The number of errors so far. -/
def errorCount : Reporting Nat := return Reports.errorCount (← get)

/-- Runs a stage, and gives its value unless it reported an error. -/
def unlessErrors (stage : Reporting (Option α)) : Reporting (Option α) := do
  let before ← errorCount
  let value ← stage
  if before < (← errorCount) then return none
  return value

section Stages

variable (schema : Schema) (query : Query)

/-- Reports a finding on the query. -/
def report (finding : Finding) : Reporting Unit :=
  modify (· ++ [finding.report query query.read])

/-- Reports findings in order. -/
def reportAll : List Finding → Reporting Unit
  | [] => return
  | finding :: rest => do
    report query finding
    reportAll rest

/-- Binds the placeholders: one after another, then their positions, their declarations and their
number. -/
def bind : Reporting (Option (List Parameter)) :=
  let style := query.descriptor.bindingStyle
  let s := query.statement
  unlessErrors do
    reportAll query ((List.range s.size).flatMap (Binding.placeholderFindings s))
    reportAll query (Binding.positionFindings s)
    reportAll query (Binding.declarationFindings style s)
    reportAll query (Binding.countFindings style s)
    return some (Binding.table style s)

/-- Takes steps towards the scope. The mark says that one of them failed; no other is taken then. -/
def takeSteps : List ScopeStep → Scope × Bool → Reporting (Scope × Bool)
  | [], state => return state
  | step :: rest, (scope, failed) =>
    if failed then return (scope, failed)
    else
      match scope.step schema query.statement step with
      | .ok after => takeSteps rest (after, false)
      | .error finding => do
        report query finding
        takeSteps rest (scope, true)

/-- The scope, unless a step failed. -/
def scope : Reporting (Option Scope) := do
  let (scope, failed) ← takeSteps schema query query.statement.scopeSteps ({}, false)
  return if failed then none else some scope

/-- The types that uses ask for. A use whose type cannot be told is reported. -/
def askedTypes : List Typing.Use → Reporting (List (ParamKey × Nat × DataType))
  | [] => return []
  | use :: rest =>
    match use.expectation with
    | .ok type => return (use.key, use.token, type) :: (← askedTypes rest)
    | .error finding => do
      report query finding
      askedTypes rest

/-- Gives each parameter its type, or reports that it has none. -/
def assignTypes (asked : List (ParamKey × Nat × DataType)) :
    List Parameter → Reporting (List Parameter)
  | [] => return []
  | parameter :: rest =>
    match Typing.typeOf schema parameter ((asked.filter (·.1 == parameter.key)).map (·.2)) with
    | .ok type => return { parameter with type } :: (← assignTypes asked rest)
    | .error finding => do
      report query finding
      return parameter :: (← assignTypes asked rest)

/-- Types the parameters: all uses first, then one parameter after another. -/
def typeParameters (scope : Scope) (parameters : List Parameter) : Reporting (List Parameter) := do
  let asked ← askedTypes query (Typing.uses query.statement scope parameters)
  assignTypes schema query asked parameters

/-- The columns of the items. The mark says that some item gave none. -/
def projectItems (env : Surroundings) : List (Nat × Nat) → Reporting (List ResultColumn × Bool)
  | [] => return ([], false)
  | (lo, hi) :: rest =>
    match env.item lo hi with
    | .ok found => do
      let (columns, failed) ← projectItems env rest
      return (found ++ columns, failed)
    | .error finding => do
      report query finding
      let (columns, _) ← projectItems env rest
      return (columns, true)

/-- The result of the query, unless an item gave no column. -/
def project (env : Surroundings) : Reporting (Option QueryResult) :=
  match env.statement.projectionItems? with
  | none => return some .execute
  | some items => do
    let (columns, failed) ← projectItems query env items
    return if failed then none else some (.rows columns)

/-- Types the parameters and projects the columns. Both stages run, whatever the first reports. -/
def resolveIn (parameters : List Parameter) (scope : Scope) : Reporting (Option ResolvedQuery) :=
  unlessErrors do
    let typed ← typeParameters schema query scope parameters
    let projected ← project query ⟨schema, query.statement, scope, typed⟩
    return projected.map fun result => ⟨query, typed, result⟩

/-- Resolves the query. -/
def resolve : Reporting (Option ResolvedQuery) := do
  match ← bind query with
  | none => return none
  | some parameters =>
    match ← scope schema query with
    | none => return none
    | some scope => resolveIn schema query parameters scope

end Stages

/-! ## What stages append -/

/-- Whatever the reports so far, the stage has the value and appends the reports. -/
def Appends (stage : Reporting α) (value : α) (reports : List Report) : Prop :=
  ∀ earlier, stage.run earlier = (value, earlier ++ reports)

namespace Appends

theorem pure (value : α) : Appends (Pure.pure value) value [] := by
  intro earlier
  rw [List.append_nil]
  rfl

theorem congr {stage : Reporting α} {value other : α} {reports others : List Report}
    (first : Appends stage value reports) (sameValue : value = other)
    (sameReports : reports = others) : Appends stage other others :=
  sameValue ▸ sameReports ▸ first

theorem andThen {stage : Reporting α} {next : α → Reporting β} {value : α} {result : β}
    {reports more : List Report} (first : Appends stage value reports)
    (second : Appends (next value) result more) :
    Appends (stage >>= next) result (reports ++ more) := by
  intro earlier
  rw [StateT.run_bind, first earlier]
  change (next value).run (earlier ++ reports) = _
  rw [second, List.append_assoc]

/-- A stage whose value is the one before it, changed. -/
theorem map {stage : Reporting α} {value : α} {reports : List Report}
    (first : Appends stage value reports) (change : α → β) :
    Appends (stage >>= fun x => Pure.pure (change x)) (change value) reports :=
  (first.andThen (pure (change value))).congr rfl (List.append_nil reports)

/-- More errors after a stage than before it are errors that the stage appends. -/
theorem unlessErrors {stage : Reporting (Option α)} {value : Option α} {reports : List Report}
    (first : Appends stage value reports) :
    Appends (Reporting.unlessErrors stage)
      (if Reports.hasErrors reports then none else value) reports := by
  intro earlier
  have more : Reports.errorCount earlier < Reports.errorCount (earlier ++ reports) ↔
      Reports.hasErrors reports = true := by
    unfold Reports.errorCount Reports.hasErrors
    rw [List.countP_append, List.any_eq_true, ← List.countP_pos_iff]
    omega
  have counts : ∀ reports, (errorCount).run reports = (Reports.errorCount reports, reports) :=
    fun _ => rfl
  unfold Reporting.unlessErrors
  rw [StateT.run_bind, counts]
  change (stage >>= _).run earlier = _
  rw [StateT.run_bind, first earlier]
  change (errorCount >>= _).run (earlier ++ reports) = _
  rw [StateT.run_bind, counts]
  by_cases errors : Reports.hasErrors reports = true
  · rw [if_pos errors]
    change StateT.run (if _ then _ else _) _ = _
    rw [if_pos (more.mpr errors)]
    rfl
  · rw [if_neg errors]
    change StateT.run (if _ then _ else _) _ = _
    rw [if_neg (mt more.mp errors)]
    rfl

variable {schema : Schema} {query : Query}

theorem report (finding : Finding) :
    Appends (Reporting.report query finding) () (query.reports [finding]) :=
  fun _ => rfl

/-- A stage that begins with reports. -/
theorem reporting (findings : List Finding) {stage : Reporting α} {value : α}
    {reports : List Report} (rest : Appends stage value reports) :
    Appends (do reportAll query findings; stage) value (query.reports findings ++ reports) := by
  have reported : Appends (reportAll query findings) () (query.reports findings) := by
    induction findings with
    | nil => exact pure ()
    | cons finding rest ih => exact (report finding).andThen ih
  exact reported.andThen rest

end Appends

/-! ## The stages of a resolution -/

variable (schema : Schema) (query : Query)

theorem reports_append (first rest : List Finding) :
    query.reports (first ++ rest) = query.reports first ++ query.reports rest :=
  List.map_append

theorem hasErrors_reports (findings : List Finding) :
    Reports.hasErrors (query.reports findings) = Findings.hasErrors findings :=
  List.any_map

theorem bind_appends : Appends (bind query) query.bind.value (query.reports query.bind.findings) := by
  have all : ∀ first second third fourth : List Finding,
      query.reports first ++ (query.reports second ++ (query.reports third ++
        (query.reports fourth ++ []))) =
      query.reports (first ++ second ++ third ++ fourth) := by
    intro first second third fourth
    simp only [reports_append, List.append_nil, List.append_assoc]
  refine Appends.congr (.unlessErrors (.reporting _ <| .reporting _ <| .reporting _ <|
    .reporting _ <| .pure _)) ?_ (all _ _ _ _)
  rw [all, hasErrors_reports]
  unfold Query.bind AnnotatedSql.bind Binding.findings
  rfl

theorem takeSteps_failed (steps : List ScopeStep) (scope : Scope) :
    Appends (takeSteps schema query steps (scope, true)) (scope, true) [] := by
  cases steps <;> exact .pure _

/-- Taking steps ends in the scope that they build, or with the report on the step that fails. -/
theorem takeSteps_appends (steps : List ScopeStep) (before : Scope) :
    match steps.foldlM (Scope.step schema query.statement) before with
    | .ok after => Appends (takeSteps schema query steps (before, false)) (after, false) []
    | .error finding => ∃ last, Appends (takeSteps schema query steps (before, false)) (last, true)
        (query.reports [finding]) := by
  induction steps generalizing before with
  | nil => exact .pure _
  | cons step rest ih =>
    rw [List.foldlM_cons]
    unfold takeSteps
    cases stepped : before.step schema query.statement step with
    | ok middle => exact ih middle
    | error finding =>
      exact ⟨before, (Appends.report finding).andThen (takeSteps_failed schema query rest before)⟩

theorem scope_appends : Appends (scope schema query)
    (Scope.ofStatement schema query.statement).toOption
    (match Scope.ofStatement schema query.statement with
      | .ok _ => []
      | .error finding => query.reports [finding]) := by
  have taken := takeSteps_appends schema query query.statement.scopeSteps {}
  unfold scope Scope.ofStatement
  split at taken
  next after built =>
    rw [built]
    exact taken.map _
  next finding fails =>
    obtain ⟨last, taken⟩ := taken
    rw [fails]
    exact taken.map _

theorem askedTypes_appends (uses : List Typing.Use) : Appends (askedTypes query uses)
    (uses.filterMap fun use => use.expectation.toOption.map (use.key, use.token, ·))
    (query.reports (uses.filterMap fun use => Typing.finding? use.expectation)) := by
  induction uses with
  | nil => exact .pure _
  | cons use rest ih =>
    unfold askedTypes
    rw [List.filterMap_cons, List.filterMap_cons]
    cases use.expectation with
    | ok type => exact ih.map _
    | error finding => exact (Appends.report finding).andThen ih

/-- The types that the uses of a key ask for are those among all that are asked for under it. -/
theorem askedTypes_filter (uses : List Typing.Use) (key : ParamKey) :
    ((uses.filterMap fun use => use.expectation.toOption.map (use.key, use.token, ·)).filter
      (·.1 == key)).map (·.2) = Typing.askedTypes uses key := by
  unfold Typing.askedTypes
  induction uses with
  | nil => rfl
  | cons use rest ih =>
    rw [List.filterMap_cons, List.filterMap_cons, ← ih]
    cases use.expectation with
    | error finding => simp [Except.toOption]
    | ok type => by_cases same : use.key = key <;> simp [Except.toOption, same]

theorem assignTypes_appends (asked : List (ParamKey × Nat × DataType))
    (typeOf : Parameter → Expectation) (parameters : List Parameter)
    (asks : ∀ p, Typing.typeOf schema p ((asked.filter (·.1 == p.key)).map (·.2)) = typeOf p) :
    Appends (assignTypes schema query asked parameters)
      (parameters.map fun p => Typing.assign p (typeOf p))
      (query.reports (parameters.filterMap fun p => Typing.finding? (typeOf p))) := by
  induction parameters with
  | nil => exact .pure _
  | cons p rest ih =>
    unfold assignTypes
    rw [List.map_cons, List.filterMap_cons, asks]
    cases typeOf p with
    | ok type => exact ih.map _
    | error finding => exact (Appends.report finding).andThen (ih.map _)

theorem typeParameters_appends (scope : Scope) (parameters : List Parameter) :
    Appends (typeParameters schema query scope parameters)
      (AnnotatedSql.typeParameters schema query.statement scope parameters).1
      (query.reports (AnnotatedSql.typeParameters schema query.statement scope parameters).2) := by
  have assigned := assignTypes_appends schema query _
    (fun p => Typing.typeOf schema p
      (Typing.askedTypes (Typing.uses query.statement scope parameters) p.key)) parameters
    fun p => by rw [askedTypes_filter]
  unfold typeParameters AnnotatedSql.typeParameters
  dsimp only
  rw [List.map_map, List.filterMap_map, reports_append]
  exact (askedTypes_appends query _).andThen assigned

theorem projectItems_appends (env : Surroundings) (items : List (Nat × Nat)) :
    Appends (projectItems query env items)
      (((items.map fun (lo, hi) => env.item lo hi).filterMap Except.toOption).flatten,
        !((items.map fun (lo, hi) => env.item lo hi).filterMap fun
          | .error finding => some finding
          | .ok _ => none).isEmpty)
      (query.reports ((items.map fun (lo, hi) => env.item lo hi).filterMap fun
        | .error finding => some finding
        | .ok _ => none)) := by
  induction items with
  | nil => exact .pure _
  | cons item rest ih =>
    unfold projectItems
    rw [List.map_cons, List.filterMap_cons, List.filterMap_cons]
    dsimp only
    cases env.item item.1 item.2 with
    | ok found => exact ih.map _
    | error finding => exact (Appends.report finding).andThen (ih.map _)

theorem project_appends (env : Surroundings) :
    Appends (project query env) (AnnotatedSql.project env).value
      (query.reports (AnnotatedSql.project env).findings) := by
  unfold project AnnotatedSql.project
  cases env.statement.projectionItems? with
  | none => exact .pure _
  | some items =>
    refine ((projectItems_appends query env items).map fun (columns, failed) =>
      if failed then none else some (QueryResult.rows columns)).congr ?_ rfl
    dsimp only
    cases (List.filterMap _ _).isEmpty <;> rfl

theorem resolveIn_appends (parameters : List Parameter) (scope : Scope) :
    Appends (resolveIn schema query parameters scope)
      ((AnnotatedSql.resolveIn schema query.statement parameters scope).value.map fun resolution =>
        ⟨query, resolution⟩)
      (query.reports (AnnotatedSql.resolveIn schema query.statement parameters scope).findings) := by
  refine Appends.congr (.unlessErrors ((typeParameters_appends schema query scope parameters).andThen
    ((project_appends query _).map _))) ?_ (reports_append query _ _).symm
  rw [← reports_append, hasErrors_reports]
  unfold AnnotatedSql.resolveIn
  dsimp only
  split
  · rfl
  · rw [Option.map_map]
    rfl

/-- Resolving appends what the resolution of the query reports. -/
theorem resolve_appends : Appends (resolve schema query) (query.resolve schema).1
    (query.resolve schema).2 := by
  have binds := bind_appends query
  have scopes := scope_appends schema query
  unfold resolve Query.resolve
  unfold Query.bind at binds
  cases bound : (AnnotatedSql.bind query.descriptor.bindingStyle query.statement).value with
  | none =>
    rw [bound] at binds
    rw [resolve_of_unbound bound]
    dsimp only [Option.map_none]
    exact Appends.congr (binds.andThen (.pure none)) rfl (List.append_nil _)
  | some parameters =>
    rw [bound] at binds
    cases built : Scope.ofStatement schema query.statement with
    | error finding =>
      rw [built] at scopes
      rw [resolve_of_no_scope bound built]
      dsimp only [Option.map_none]
      refine Appends.congr (binds.andThen (scopes.andThen (.pure none))) rfl ?_
      rw [List.append_nil]
      exact (reports_append query _ _).symm
    | ok scope =>
      rw [built] at scopes
      rw [resolve_of_scope bound built]
      dsimp only
      exact Appends.congr (binds.andThen (scopes.andThen (resolveIn_appends schema query parameters scope))) rfl
        (reports_append query _ _).symm

end Reporting

/-- A statement that resolves has no error among its findings. -/
theorem resolve_clean {schema : Schema} {style : BindingStyle} {s : Statement}
    {resolution : Resolution} (resolves : (resolve schema style s).value = some resolution) :
    Findings.hasErrors (resolve schema style s).findings = false := by
  obtain ⟨accepts, scope, built, inScope⟩ := resolve_success resolves
  have bound : (bind style s).value = some (Binding.table style s) :=
    Binding.bind_value_iff.mpr ⟨accepts, rfl⟩
  have bindingClean : Findings.hasErrors (bind style s).findings = false := accepts
  have restClean := (resolveIn_success inScope).1
  rw [resolve_of_scope bound built]
  unfold Findings.hasErrors at bindingClean restClean ⊢
  rw [List.any_append, bindingClean, Bool.false_or]
  exact restClean

/-- Whatever was reported before, resolving a query appends its reports, and neither they nor its
result depend on what was there. It fails exactly if one of the appended reports is an error. -/
theorem Query.resolve_framed (schema : Schema) (query : Query) :
    (∀ earlier, (Reporting.resolve schema query).run earlier =
      ((query.resolve schema).1, earlier ++ (query.resolve schema).2)) ∧
    ((query.resolve schema).1 = none ↔
      ∃ report ∈ (query.resolve schema).2, report.isError = true) := by
  refine ⟨Reporting.resolve_appends schema query, Query.resolve_error, ?_⟩
  rintro ⟨report, reported, isError⟩
  cases result : (query.resolve schema).1 with
  | none => rfl
  | some resolved =>
    obtain ⟨resolution, resolves, rfl⟩ := Option.map_eq_some_iff.mp result
    have clean := resolve_clean resolves
    rw [← Reporting.hasErrors_reports query] at clean
    have found : Reports.hasErrors (query.resolve schema).2 = true :=
      List.any_eq_true.mpr ⟨report, reported, isError⟩
    exact absurd (found.symm.trans clean) (by simp)

end AnnotatedSql
