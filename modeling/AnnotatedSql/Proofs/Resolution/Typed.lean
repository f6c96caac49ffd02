import AnnotatedSql.Proofs.Parameter.Table
import AnnotatedSql.Proofs.Schema.Resolved
import AnnotatedSql.Proofs.Statement.Bounds
import AnnotatedSql.Resolution

/-!
# Types of a resolution

Every type that resolving comes upon is one that the schema offers: those of the columns in scope,
what a use of a placeholder asks for, and that of every expression that is understood. Under a schema
that holds known types only, a resolution therefore leaves no parameter and no column without a type.
-/

namespace AnnotatedSql

/-! ## Scopes -/

/-- The scope holds relations of the schema and columns of theirs. -/
structure Scope.Within (schema : Schema) (scope : Scope) : Prop where
  entries : ∀ entry ∈ scope.entries, entry.relation ∈ schema.relations
  insert : ∀ target, scope.insert = some target → ∃ relation ∈ schema.relations,
    ∀ column ∈ target.columns, column ∈ relation.columns

namespace Scope

variable {schema : Schema} {s : Statement} {scope after : Scope}

theorem enter_relation {reference : TableReference} {name : Name} {i : Nat} {nullable : Bool}
    {relation : Relation}
    (entered : scope.enter schema s reference name i nullable = .ok (relation, after)) :
    schema.relation? name.text name.exact = some relation ∧
      after = { scope with entries := scope.entries ++
        [⟨relation, reference.aliasName, nullable, s.queryContext reference.start⟩] } := by
  unfold enter at entered
  split at entered
  · cases entered
  next found =>
    cases entered
    exact ⟨found, rfl⟩

theorem listedColumns_mem {relation : Relation} {items : List (Nat × Nat)}
    {columns : List Column} (listed : listedColumns s relation items = .ok columns) :
    ∀ column ∈ columns, column ∈ relation.columns := by
  intro column member
  obtain ⟨⟨lo, hi⟩, _, accepted⟩ := mapM_mem listed member
  dsimp only at accepted
  split at accepted
  next found =>
    cases accepted
    obtain ⟨name, _, looked⟩ := Option.bind_eq_some_iff.mp found
    exact findNamed_mem looked
  next => cases accepted

/-- What a step does to a scope, unless it fails. -/
inductive StepEffect (schema : Schema) (s : Statement) (scope : Scope) : ScopeStep → Scope → Prop
  | unnamedTable {reference : TableReference} {nullable : Bool}
      (unnamed : reference.relation = none) :
      StepEffect schema s scope (.table reference nullable) scope
  | table {reference : TableReference} {nullable : Bool} {name : Name} {i : Nat}
      {relation : Relation} (named : reference.relation = some (name, i))
      (found : schema.relation? name.text name.exact = some relation) :
      StepEffect schema s scope (.table reference nullable) { scope with
        entries := scope.entries ++
          [⟨relation, reference.aliasName, nullable, s.queryContext reference.start⟩] }
  | absent {context : Option Nat} :
      StepEffect schema s scope (.absent context) { scope with
        entries := scope.entries.map fun entry =>
          if entry.context == context then { entry with nullable := true } else entry }
  | unnamedTarget {reference : TableReference} {source : InsertSource}
      (unnamed : reference.relation = none) :
      StepEffect schema s scope (.insertion reference source) scope
  | target {reference : TableReference} {source : InsertSource} {name : Name} {i : Nat}
      {relation : Relation} {columns : List Column}
      (named : reference.relation = some (name, i))
      (found : schema.relation? name.text name.exact = some relation)
      (chosen : source.columns = none ∧ columns = relation.columns ∨
        ∃ items, source.columns = some items ∧ listedColumns s relation items = .ok columns) :
      StepEffect schema s scope (.insertion reference source) { scope with
        entries := scope.entries ++
          [⟨relation, reference.aliasName, false, s.queryContext reference.start⟩]
        insert := some ⟨columns, source.rows⟩ }

theorem step_effect {action : ScopeStep} (stepped : scope.step schema s action = .ok after) :
    scope.StepEffect schema s action after := by
  cases action with
  | table reference nullable =>
    simp only [Scope.step] at stepped
    split at stepped
    next unnamed =>
      cases stepped
      exact .unnamedTable unnamed
    next name i named =>
      cases entered : scope.enter schema s reference name i nullable with
      | error finding =>
        rw [entered] at stepped
        cases stepped
      | ok pair =>
        rw [entered] at stepped
        cases stepped
        obtain ⟨found, effect⟩ := enter_relation entered
        rw [effect]
        exact .table named found
  | absent context =>
    cases stepped
    exact .absent
  | insertion reference source =>
    simp only [Scope.step] at stepped
    split at stepped
    next unnamed =>
      cases stepped
      exact .unnamedTarget unnamed
    next name i named =>
      obtain ⟨⟨relation, entered⟩, enters, stepped⟩ := bind_success stepped
      obtain ⟨found, rfl⟩ := enter_relation enters
      dsimp only at stepped
      split at stepped
      next items given =>
        obtain ⟨columns, listed, stepped⟩ := bind_success stepped
        cases stepped
        exact .target named found (Or.inr ⟨items, given, listed⟩)
      next given =>
        cases stepped
        exact .target named found (Or.inl ⟨given, rfl⟩)

namespace Within

theorem append {relation : Relation} {name : Name} {entry : ScopeEntry} (within : scope.Within schema)
    (found : schema.relation? name.text name.exact = some relation)
    (brings : entry.relation = relation) :
    ∀ other ∈ scope.entries ++ [entry], other.relation ∈ schema.relations := by
  intro other member
  rcases List.mem_append.mp member with old | new
  · exact within.entries other old
  · obtain rfl := List.mem_singleton.mp new
    exact brings ▸ findNamed_mem found

/-- Each step of building a scope brings in relations of the schema only. -/
theorem step {action : ScopeStep} (within : scope.Within schema)
    (stepped : scope.step schema s action = .ok after) : after.Within schema := by
  cases step_effect stepped with
  | unnamedTable _ => exact within
  | table _ found => exact ⟨within.append found rfl, within.insert⟩
  | absent =>
    refine ⟨fun entry member => ?_, within.insert⟩
    obtain ⟨before, old, rfl⟩ := List.mem_map.mp member
    split
    · exact within.entries before old
    · exact within.entries before old
  | unnamedTarget _ => exact within
  | @target _ _ _ _ relation _ _ found chosen =>
    refine ⟨within.append found rfl, fun target same => ⟨relation, findNamed_mem found, ?_⟩⟩
    cases same
    rcases chosen with ⟨_, rfl⟩ | ⟨items, _, listed⟩
    · exact fun _ member => member
    · exact listedColumns_mem listed

theorem ofStatement (built : Scope.ofStatement schema s = .ok scope) : scope.Within schema :=
  foldlM_keeps (Within schema) (fun _ _ _ _ kept stepped => kept.step stepped)
    ⟨by simp, by simp⟩ built

/-- A column found in scope has a type of the schema. -/
theorem lookupIn {contexts : List (Option Nat)} {name : ColumnName} {found : FoundColumn}
    (within : scope.Within schema) (looked : scope.lookupIn name contexts = .ok found) :
    schema.Offers found.column.type := by
  induction contexts with
  | nil => cases looked
  | cons context outer ih =>
    unfold Scope.lookupIn at looked
    split at looked
    · exact ih looked
    next single =>
      cases looked
      have member : found ∈ scope.candidates name context := by simp [single]
      obtain ⟨entry, inContext, column⟩ := List.mem_filterMap.mp member
      unfold ScopeEntry.column? at column
      split at column
      · obtain ⟨declared, named, rfl⟩ := Option.map_eq_some_iff.mp column
        exact .column (within.entries entry (List.mem_filter.mp inContext).1)
          (findNamed_mem named)
      · cases column
    · cases looked

/-- So has every column that an entry contributes to `*`. -/
theorem columns {entry : ScopeEntry} {found : FoundColumn} (within : scope.Within schema)
    (member : entry ∈ scope.entries) (inside : found ∈ entry.columns) :
    schema.Offers found.column.type := by
  obtain ⟨column, declared, rfl⟩ := List.mem_map.mp inside
  exact .column (within.entries entry member) declared

end Within

end Scope

/-! ## Parameters -/

namespace Typing

section

variable {schema : Schema} {s : Statement} {scope : Scope} (within : scope.Within schema)

include within

/-- Whatever the surroundings of a placeholder ask for is a type of the schema. -/
theorem contextType_offered {i : Nat} {type : DataType}
    (asked : contextType s scope i = some (.ok type)) : schema.Offers type := by
  let offered : Expectation → Prop := fun expectation =>
    ∀ type, expectation = .ok type → schema.Offers type
  have rows : offered (.ok (.scalar .int8)) := fun type same => Except.ok.inj same ▸ .scalar _
  have named : ∀ i name lo hi, lo < s.size → hi ≤ s.size →
      offered (columnType s scope i name lo hi) := by
    intro i name lo hi _ _ type typed
    obtain ⟨found, looked, rfl⟩ := columnType_eq_ok.mp typed
    exact within.lookupIn looked
  have written : ∀ target, scope.insert = some target → ∀ column ∈ target.columns,
      offered (.ok column.type) := by
    intro target writes column listed type same
    obtain rfl := Except.ok.inj same
    obtain ⟨relation, known, columns⟩ := within.insert target writes
    exact .column known (columns column listed)
  exact contextType_cases rows named written i _ asked type rfl

theorem askedTypes_offered {parameters : List Parameter} {key : ParamKey} {asked : Nat × DataType}
    (member : asked ∈ askedTypes (uses s scope parameters) key) : schema.Offers asked.2 := by
  obtain ⟨use, used, asks⟩ := List.mem_filterMap.mp member
  obtain ⟨⟨i, other⟩, _, found⟩ := List.mem_filterMap.mp used
  obtain ⟨expectation, context, rfl⟩ := Option.map_eq_some_iff.mp found
  split at asks
  · obtain ⟨type, given, rfl⟩ := Option.map_eq_some_iff.mp asks
    cases expectation with
    | error finding => cases given
    | ok type =>
      cases given
      exact contextType_offered within context
  · cases asks

end

theorem typeOf_offered {schema : Schema} {parameter : Parameter} {asked : List (Nat × DataType)}
    (agreed : ∀ use ∈ asked, schema.Offers use.2) {type : DataType}
    (typed : typeOf schema parameter asked = .ok type) : schema.Offers type := by
  unfold typeOf at typed
  split at typed
  · split at typed
    next found =>
      cases typed
      exact .typeNamed found
    · cases typed
  · cases asked with
    | nil => cases typed
    | cons first others =>
      dsimp only at typed
      split at typed
      · cases typed
        exact agreed first (by simp)
      · cases typed

/-- A parameter without a type fails its query. -/
theorem typeOf_isError {schema : Schema} {parameter : Parameter} {asked : List (Nat × DataType)}
    {finding : Finding} (untyped : typeOf schema parameter asked = .error finding) :
    finding.isError = true := by
  unfold typeOf at untyped
  split at untyped
  · split at untyped
    · cases untyped
    · cases untyped
      rfl
  · split at untyped
    · cases untyped
      rfl
    · split at untyped
      · cases untyped
      · cases untyped
        rfl

end Typing

/-- What typing does to a parameter changes its type only. -/
theorem Typing.assign_eq (p : Parameter) (expectation : Expectation) :
    Typing.assign p expectation = { p with type := (Typing.assign p expectation).type } := by
  cases expectation <;> rfl

@[simp] theorem Typing.assign_slot (p : Parameter) (expectation : Expectation) :
    (Typing.assign p expectation).slot = p.slot := by
  rw [Typing.assign_eq]

@[simp] theorem Typing.assign_key (p : Parameter) (expectation : Expectation) :
    (Typing.assign p expectation).key = p.key := by
  rw [Typing.assign_eq]

/-- Typing keeps the slots in order. -/
theorem typeParameters_slots (schema : Schema) (s : Statement) (scope : Scope)
    (parameters : List Parameter) :
    (typeParameters schema s scope parameters).1.map Parameter.slot =
      parameters.map Parameter.slot := by
  simp [typeParameters, Function.comp_def]

/-- Typing keeps the keys in order. -/
theorem typeParameters_keys (schema : Schema) (s : Statement) (scope : Scope)
    (parameters : List Parameter) :
    (typeParameters schema s scope parameters).1.map Parameter.key =
      parameters.map Parameter.key := by
  simp [typeParameters, Function.comp_def]

/-- A typed parameter is an entry of the table with a type. -/
theorem mem_typeParameters {schema : Schema} {s : Statement} {scope : Scope}
    {parameters : List Parameter} {p : Parameter}
    (member : p ∈ (typeParameters schema s scope parameters).1) :
    ∃ bare ∈ parameters, ∃ type, p = { bare with type } := by
  simp only [typeParameters, List.map_map, List.mem_map, Function.comp_apply] at member
  obtain ⟨bare, inTable, rfl⟩ := member
  exact ⟨bare, inTable, _, Typing.assign_eq _ _⟩

/-- Typing keeps the parameters in order, and each that it could type has a known type. -/
theorem typeParameters_spec {schema : Schema} {s : Statement} {scope : Scope}
    {parameters : List Parameter}
    (clean : Findings.hasErrors (typeParameters schema s scope parameters).2 = false) :
    ∀ p ∈ parameters, ∃ type,
      Typing.typeOf schema p (Typing.askedTypes (Typing.uses s scope parameters) p.key) =
        .ok type := by
  intro p member
  cases typed : Typing.typeOf schema p
      (Typing.askedTypes (Typing.uses s scope parameters) p.key) with
  | ok type => exact ⟨type, rfl⟩
  | error finding =>
    have listed : finding ∈ (typeParameters schema s scope parameters).2 := by
      refine List.mem_append_right _ (List.mem_filterMap.mpr ⟨(p, .error finding), ?_, rfl⟩)
      exact List.mem_map.mpr ⟨p, member, by rw [typed]⟩
    have fails : Findings.hasErrors (typeParameters schema s scope parameters).2 = true :=
      List.any_eq_true.mpr ⟨finding, listed, Typing.typeOf_isError typed⟩
    rw [clean] at fails
    cases fails

/-- Typing gives a parameter a type of the schema, or leaves it as it is. -/
theorem typeParameters_offered {schema : Schema} {s : Statement} {scope : Scope}
    {parameters : List Parameter} (within : scope.Within schema) {p : Parameter}
    (member : p ∈ (typeParameters schema s scope parameters).1) :
    p ∈ parameters ∨ schema.Offers p.type := by
  simp only [typeParameters, List.map_map, List.mem_map, Function.comp_apply] at member
  obtain ⟨bare, inTable, rfl⟩ := member
  cases typed : Typing.typeOf schema bare
      (Typing.askedTypes (Typing.uses s scope parameters) bare.key) with
  | error _ => exact Or.inl inTable
  | ok type =>
    exact Or.inr (Typing.typeOf_offered (fun use asked => Typing.askedTypes_offered within asked)
      typed)

/-- A typed table has a type of the schema for each parameter. -/
theorem typeParameters_typed {schema : Schema} {s : Statement} {scope : Scope}
    {parameters : List Parameter} (within : scope.Within schema)
    (clean : Findings.hasErrors (typeParameters schema s scope parameters).2 = false) :
    ∀ p ∈ (typeParameters schema s scope parameters).1, schema.Offers p.type := by
  intro p member
  simp only [typeParameters, List.map_map, List.mem_map, Function.comp_apply] at member
  obtain ⟨bare, inTable, rfl⟩ := member
  obtain ⟨type, typed⟩ := typeParameters_spec clean bare inTable
  rw [typed]
  exact Typing.typeOf_offered (fun use asked => Typing.askedTypes_offered within asked) typed

end AnnotatedSql
