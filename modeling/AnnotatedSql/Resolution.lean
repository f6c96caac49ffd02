import AnnotatedSql.Parameter.Binding
import AnnotatedSql.Projection.Basic

/-!
# Resolution

Resolving a statement binds its parameters, finds its scope, types the parameters and projects its
columns. Each stage needs the one before; the last two both run, so that their findings come
together. Any error fails the statement and no other.
-/

namespace AnnotatedSql

/-- What a statement takes and gives, all types known. -/
structure Resolution where
  parameters : List Parameter
  result : QueryResult
  deriving DecidableEq, Repr

/-- Resolves a statement whose parameters are bound in the given scope. -/
def resolveIn (schema : Schema) (s : Statement) (parameters : List Parameter) (scope : Scope) :
    Analyzed Resolution :=
  let (typed, typing) := typeParameters schema s scope parameters
  let projected := project ⟨schema, s, scope, typed⟩
  let findings := typing ++ projected.findings
  ⟨if Findings.hasErrors findings then none
    else projected.value.map fun result => ⟨typed, result⟩, findings⟩

/-- Resolves a statement under a header. -/
def resolve (schema : Schema) (style : BindingStyle) (s : Statement) : Analyzed Resolution :=
  let bound := bind style s
  match bound.value with
  | none => ⟨none, bound.findings⟩
  | some parameters =>
    match Scope.ofStatement schema s with
    | .error finding => ⟨none, bound.findings ++ [finding]⟩
    | .ok scope =>
      let resolved := resolveIn schema s parameters scope
      ⟨resolved.value, bound.findings ++ resolved.findings⟩

section

variable {schema : Schema} {style : BindingStyle} {s : Statement} {parameters : List Parameter}

/-- Without parameters there is nothing to resolve. -/
theorem resolve_of_unbound (unbound : (bind style s).value = none) :
    resolve schema style s = ⟨none, (bind style s).findings⟩ := by
  simp only [resolve, unbound]

/-- Nor is there without a scope. -/
theorem resolve_of_no_scope (bound : (bind style s).value = some parameters) {finding : Finding}
    (fails : Scope.ofStatement schema s = .error finding) :
    resolve schema style s = ⟨none, (bind style s).findings ++ [finding]⟩ := by
  simp only [resolve, bound, fails]

theorem resolve_of_scope (bound : (bind style s).value = some parameters) {scope : Scope}
    (built : Scope.ofStatement schema s = .ok scope) :
    resolve schema style s =
      ⟨(resolveIn schema s parameters scope).value,
        (bind style s).findings ++ (resolveIn schema s parameters scope).findings⟩ := by
  simp only [resolve, bound, built]

end

/-- A query with its resolution. -/
structure ResolvedQuery where
  query : Query
  resolution : Resolution
  deriving DecidableEq, Repr

namespace ResolvedQuery

/-- The typed parameters in slot order. -/
def parameters (resolved : ResolvedQuery) : List Parameter := resolved.resolution.parameters

/-- What running the query gives. -/
def result (resolved : ResolvedQuery) : QueryResult := resolved.resolution.result

/-- The columns of the rows; none if there are no rows. -/
def columns (resolved : ResolvedQuery) : List ResultColumn := resolved.result.columns

/-- The text of the query with a slot for every named placeholder. -/
def rewrittenSql (resolved : ResolvedQuery) : String :=
  resolved.query.rewrittenSql resolved.parameters

end ResolvedQuery

/-- Resolves a query: its resolution unless there are errors, and the reports on it. -/
def Query.resolve (schema : Schema) (query : Query) : Option ResolvedQuery × List Report :=
  let resolved := AnnotatedSql.resolve schema query.descriptor.bindingStyle query.statement
  (resolved.value.map (⟨query, ·⟩), query.reports resolved.findings)

namespace Query

variable {schema : Schema} {query : Query}

/-- A query resolves to itself with the resolution of its statement. -/
theorem resolve_eq_some_iff {resolved : ResolvedQuery} :
    (query.resolve schema).1 = some resolved ↔ resolved.query = query ∧
      (AnnotatedSql.resolve schema query.descriptor.bindingStyle query.statement).value =
        some resolved.resolution := by
  obtain ⟨of, resolution⟩ := resolved
  rw [resolve, Option.map_eq_some_iff]
  constructor
  · rintro ⟨_, found, same⟩
    cases same
    exact ⟨rfl, found⟩
  · rintro ⟨rfl, found⟩
    exact ⟨resolution, found, rfl⟩

theorem resolve_eq_none_iff :
    (query.resolve schema).1 = none ↔
      (AnnotatedSql.resolve schema query.descriptor.bindingStyle query.statement).value = none := by
  rw [resolve, Option.map_eq_none_iff]

/-- What is reported on a query are the findings on its statement. -/
theorem mem_resolve_reports {report : Report} :
    report ∈ (query.resolve schema).2 ↔
      ∃ finding ∈ (AnnotatedSql.resolve schema query.descriptor.bindingStyle
        query.statement).findings, finding.report query query.read = report := by
  rw [resolve, reports, List.mem_map]

end Query

end AnnotatedSql
