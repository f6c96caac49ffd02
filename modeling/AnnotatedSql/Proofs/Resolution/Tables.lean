import AnnotatedSql.Proofs.Resolution.Typed
import AnnotatedSql.Proofs.Statement.Reference

/-!
# Tables of a statement

The scope of a statement holds, at statement level, the relations of the tables that the words at
that level name, in the order of the text. What a subquery names is not among them.
-/

namespace AnnotatedSql

/-- The relation that a step brings to statement level. -/
def Statement.table? (schema : Schema) (s : Statement) (action : ScopeStep) : Option Relation :=
  action.reference?.bind fun reference =>
    if s.queryContext reference.start == none then
      reference.relation.bind fun (name, _) => schema.relation? name.text name.exact
    else none

/-- The relations that token `i` brings to statement level. -/
def Statement.tablesAt (schema : Schema) (s : Statement) (i : Nat) : List Relation :=
  (s.scopeStepsAt i).filterMap (s.table? schema)

/-- The relations that `count` tokens from `i` on bring to statement level. -/
def Statement.tablesIn (schema : Schema) (s : Statement) (i count : Nat) : List Relation :=
  (List.range' i count).flatMap (s.tablesAt schema)

/-- The entry after an outer join in the query `context`, which may leave out what is there. -/
def ScopeEntry.leftOut (context : Option Nat) (entry : ScopeEntry) : ScopeEntry :=
  if entry.context == context then { entry with nullable := true } else entry

@[simp] theorem ScopeEntry.leftOut_context {context : Option Nat} {entry : ScopeEntry} :
    (entry.leftOut context).context = entry.context := by
  unfold leftOut
  split <;> rfl

@[simp] theorem ScopeEntry.leftOut_relation {context : Option Nat} {entry : ScopeEntry} :
    (entry.leftOut context).relation = entry.relation := by
  unfold leftOut
  split <;> rfl

namespace Scope

variable {schema : Schema} {s : Statement} {scope after : Scope}

/-- The relations at statement level. -/
def tables (scope : Scope) : List Relation := scope.statementEntries.map (·.relation)

/-- A step leaves out what its query holds, or it adds the relation that its reference names, if it
names one. -/
theorem step_cases {action : ScopeStep} (stepped : scope.step schema s action = .ok after) :
    (∃ context, action = .absent context ∧
      after.entries = scope.entries.map (ScopeEntry.leftOut context)) ∨
    ∃ reference added, action.reference? = some reference ∧ after.entries = scope.entries ++ added ∧
      (∀ entry ∈ added, entry.context = s.queryContext reference.start) ∧
      added.map (·.relation) = (reference.relation.bind fun (name, _) =>
        schema.relation? name.text name.exact).toList := by
  cases step_effect stepped with
  | @unnamedTable reference _ unnamed =>
    exact Or.inr ⟨reference, [], rfl, by simp, by simp, by simp [unnamed]⟩
  | @table reference _ _ _ _ named found =>
    exact Or.inr ⟨reference, [_], rfl, rfl, by simp, by simp [named, found]⟩
  | @absent context => exact Or.inl ⟨context, rfl, rfl⟩
  | @unnamedTarget reference _ unnamed =>
    exact Or.inr ⟨reference, [], rfl, by simp, by simp, by simp [unnamed]⟩
  | @target reference _ _ _ _ _ named found _ =>
    exact Or.inr ⟨reference, [_], rfl, rfl, by simp, by simp [named, found]⟩

/-- A step brings its relation to statement level and nothing else. -/
theorem step_tables {action : ScopeStep} (stepped : scope.step schema s action = .ok after) :
    after.tables = scope.tables ++ (s.table? schema action).toList := by
  unfold tables statementEntries
  rcases step_cases stepped with ⟨context, rfl, effect⟩ | ⟨reference, added, brings, effect, place, names⟩
  · rw [effect, List.filter_map, List.map_map]
    refine (congr_arg₂ _ (funext fun entry => ?_) (List.filter_congr fun entry _ => ?_)).trans
      (List.append_nil _).symm
    · exact ScopeEntry.leftOut_relation
    · exact congrArg (· == none) ScopeEntry.leftOut_context
  · rw [effect, List.filter_append, List.map_append, Statement.table?, brings, Option.bind_some]
    congr 1
    by_cases top : s.queryContext reference.start = none
    · rw [List.filter_eq_self.mpr fun entry member => by simp [place entry member, top], names]
      simp [top]
    · rw [List.filter_eq_nil_iff.mpr fun entry member => by simp [place entry member, top]]
      simp [top]

theorem foldlM_tables {steps : List ScopeStep} (built : steps.foldlM (step schema s) scope = .ok after) :
    after.tables = scope.tables ++ steps.filterMap (s.table? schema) := by
  induction steps generalizing scope with
  | nil =>
    cases built
    simp
  | cons action rest ih =>
    rw [List.foldlM_cons] at built
    obtain ⟨middle, stepped, built⟩ := bind_success built
    rw [ih built, step_tables stepped, List.append_assoc, List.filterMap_cons]
    cases s.table? schema action <;> rfl

/-- The relations at statement level are those that the tokens bring there, in order. -/
theorem ofStatement_tables (built : ofStatement schema s = .ok scope) :
    scope.tables = (List.range s.size).flatMap (s.tablesAt schema) := by
  rw [foldlM_tables built, Statement.scopeSteps, List.filterMap_flatMap]
  rfl

end Scope

/-- What is named within parentheses is not at statement level. -/
theorem Statement.Levelled.tablesAt_inside {schema : Schema} {s : Statement} (levelled : s.Levelled)
    {i : Nat} (inside : s.level i ≠ []) : s.tablesAt schema i = [] := by
  obtain ⟨opening, outer, level⟩ := List.exists_cons_of_ne_nil inside
  refine List.filterMap_eq_nil_iff.mpr fun action listed => ?_
  unfold table?
  cases brings : action.reference? with
  | none => rfl
  | some reference =>
    rw [Option.bind_some, levelled.queryContext_of_inside listed brings level]
    rfl

/-! ## Their columns -/

/-- The name and the type of a column of the result. -/
def ResultColumn.typed (column : ResultColumn) : String × DataType := (column.name, column.type)

/-- The names and the types of the columns of a relation. -/
def Relation.typedColumns (relation : Relation) : List (String × DataType) :=
  relation.columns.map fun column => (column.name, column.type)

theorem Scope.typed_statementEntries (scope : Scope) :
    ((scope.statementEntries.flatMap ScopeEntry.columns).map ResultColumn.ofFound).map
        ResultColumn.typed =
      scope.tables.flatMap Relation.typedColumns := by
  unfold Scope.tables
  rw [List.map_map, List.map_flatMap, List.flatMap_map]
  refine List.flatMap_congr fun entry _ => ?_
  unfold ScopeEntry.columns Relation.typedColumns
  rw [List.map_map]
  rfl

end AnnotatedSql
