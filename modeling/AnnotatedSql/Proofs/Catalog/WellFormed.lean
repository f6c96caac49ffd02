import AnnotatedSql.Compilation
import AnnotatedSql.Proofs.Projection.Typed

/-!
# Well-formed catalog entries

What generated code relies on: parameters are numbered from one without a gap, every type is known
and has a Rust type, and the hints for names of structs agree with what the query takes and gives.
Compiling gives such entries only.
-/

namespace AnnotatedSql

/-- The value of a member of an object. -/
def Json.member? (key : String) : Json → Option Json
  | object members => (members.find? (·.key == key)).map Member.value
  | _ => none

/-- A written type: no part of it is unknown, `rust` is its Rust type, and the members that describe
it agree with it. -/
structure DataType.WrittenIn (type : DataType) (rust : String) (object : Json) : Prop where
  known : ∀ part, type.Part part → part ≠ .unresolved
  typeMember : object.member? "type" = some type.encode
  rustMember : object.member? "rust_type" = some (.string rust)
  copyMember : object.member? "is_copy" = some (.bool type.isCopy)

/-- What generated code relies on. -/
structure CatalogEntry.WellFormed (entry : CatalogEntry) : Prop where
  /-- Parameters are listed by slot, from one. -/
  slots : entry.parameters.map Parameter.slot = List.range' 1 entry.parameters.length
  /-- A position is its own slot. -/
  positions : ∀ p ∈ entry.parameters, ∀ number, p.key = .positional number → p.slot = number
  keys : (entry.parameters.map Parameter.key).Nodup
  parameterTypes : ∀ p ∈ entry.parameters, ∃ rust, p.type.rustType? = some rust ∧
    p.type.WrittenIn rust p.encode
  columnTypes : ∀ column ∈ entry.columns, ∃ rust, column.type.rustType? = some rust ∧
    column.type.WrittenIn (if column.nullable then "Option<" ++ rust ++ ">" else rust)
      column.encode
  execute : entry.resolved.result = .execute → entry.columns = [] ∧ entry.rowStruct? = none
  rowStruct : entry.rowStruct?.isSome = true ↔ ∃ columns, entry.resolved.result = .rows columns
  paramsStruct : entry.paramsStruct?.isSome = true ↔ ∃ p, p ∈ entry.parameters

/-- A written parameter describes its type. -/
theorem Parameter.writtenIn {p : Parameter} (known : p.type.isResolved = true) :
    ∃ rust, p.type.rustType? = some rust ∧ p.type.WrittenIn rust p.encode := by
  obtain ⟨rust, found⟩ := rustType_of_resolved p.type known
  refine ⟨rust, found, fun part inside => DataType.ne_unresolved_of_part inside known, ?_, ?_, ?_⟩
  · rfl
  · simp [Parameter.encode, Json.member?, Json.ofOption, found]
  · rfl

/-- A written column describes its type, as an option if it may be null. -/
theorem ResultColumn.writtenIn {column : ResultColumn} (known : column.type.isResolved = true) :
    ∃ rust, column.type.rustType? = some rust ∧
      column.type.WrittenIn (if column.nullable then "Option<" ++ rust ++ ">" else rust)
        column.encode := by
  obtain ⟨rust, found⟩ := rustType_of_resolved column.type known
  refine ⟨rust, found, fun part inside => DataType.ne_unresolved_of_part inside known, ?_, ?_, ?_⟩
  · rfl
  · simp [ResultColumn.encode, ResultColumn.rustType?, Json.member?, Json.ofOption, found]
  · rfl

/-- An entry of a query that resolves is well formed. -/
theorem CatalogEntry.wellFormed_of_resolve {schema : Schema} (known : schema.Resolved)
    {style : BindingStyle} {s : Statement} {entry : CatalogEntry}
    (resolves : (resolve schema style s).value = some entry.resolved.resolution) :
    entry.WellFormed := by
  obtain ⟨accepts, scope, built, inScope⟩ := resolve_success resolves
  obtain ⟨clean, parameters, projected⟩ := resolveIn_success inScope
  have typed : entry.parameters =
      (typeParameters schema s scope (Binding.table style s)).1 := parameters
  have within := Scope.Within.ofStatement built
  have typingClean : Findings.hasErrors
      (typeParameters schema s scope (Binding.table style s)).2 = false := by
    simp only [Findings.hasErrors, List.any_append, Bool.or_eq_false_iff] at clean
    exact clean.1
  have offered := typeParameters_typed within typingClean
  have slots : entry.parameters.map Parameter.slot =
      (Binding.table style s).map Parameter.slot := by
    rw [typed, typeParameters_slots]
  have keys : entry.parameters.map Parameter.key = Binding.orderedKeys style s := by
    rw [typed, typeParameters_keys, Binding.table_keys]
  refine ⟨?_, ?_, ?_, ?_, ?_, ?_, ?_, ?_⟩
  · have length := congrArg List.length slots
    simp only [List.length_map] at length
    rw [slots, length, Binding.table_slots]
  · intro p member number positional
    rw [typed] at member
    simp only [typeParameters, List.map_map, List.mem_map, Function.comp_apply] at member
    obtain ⟨bare, inTable, rfl⟩ := member
    rw [Typing.assign_key] at positional
    rw [Typing.assign_slot]
    exact accepts.slot_of_position inTable positional
  · rw [keys]
    exact Binding.orderedKeys_nodup style s
  · intro p member
    rw [typed] at member
    exact Parameter.writtenIn (known.offered (offered p member))
  · intro column member
    have inside : Surroundings.Within ⟨schema, s, scope, _⟩ := ⟨within, fun p member _ => offered p member⟩
    exact ResultColumn.writtenIn (known.offered (project_offered inside projected column member))
  · intro executes
    constructor
    · simp [CatalogEntry.columns, ResolvedQuery.columns, ResolvedQuery.result, QueryResult.columns,
        show entry.resolved.resolution.result = .execute from executes]
    · simp [CatalogEntry.rowStruct?, CatalogEntry.returnsRows, executes]
  · unfold CatalogEntry.rowStruct? CatalogEntry.returnsRows
    cases entry.resolved.result <;> simp
  · unfold CatalogEntry.paramsStruct?
    cases entry.parameters with
    | nil => simp
    | cons first rest => exact ⟨fun _ => ⟨first, by simp⟩, fun _ => rfl⟩

namespace Catalog

theorem mem_of_mem_firstOfName {entries : List CatalogEntry} {entry : CatalogEntry}
    (member : entry ∈ firstOfName entries) : entry ∈ entries := by
  induction entries with
  | nil => cases member
  | cons first rest ih =>
    rcases List.mem_cons.mp member with rfl | member
    · simp
    · exact List.mem_cons_of_mem _ (ih (List.mem_filter.mp member).1)

end Catalog

/-- Every entry of a compiled catalog is a query of one of the sources that resolves. -/
theorem compile_entry_resolves {schema : Schema} {options : CompileOptions} {sources : List Source}
    {entry : CatalogEntry} (member : entry ∈ (compile schema options sources).catalog) :
    ∃ source index, (source, index) ∈ sources.zipIdx ∧
      entry.query ∈ (parseModule index options.streamSuffix source.text.toList).queries ∧
      (resolve schema entry.descriptor.bindingStyle entry.query.statement).value =
        some entry.resolved.resolution := by
  have listed := Catalog.mem_of_mem_firstOfName member
  obtain ⟨compiled, inModules, inModule⟩ := List.mem_flatMap.mp listed
  obtain ⟨⟨source, index⟩, inSources, rfl⟩ := List.mem_map.mp inModules
  obtain ⟨resolved, succeeded, rfl⟩ := List.mem_map.mp inModule
  obtain ⟨outcome, ran, value⟩ := List.mem_filterMap.mp succeeded
  obtain ⟨query, parsed, rfl⟩ := List.mem_map.mp ran
  obtain ⟨rfl, found⟩ := Query.resolve_eq_some_iff.mp value
  exact ⟨source, index, inSources, parsed, found⟩

/-- Compiling under a schema that was read from text gives well-formed entries only. -/
theorem compile_wellFormed {text : List Char} {schema : Schema}
    (loaded : Schema.ofText text = .ok schema) (options : CompileOptions) (sources : List Source) :
    ∀ entry ∈ (compile schema options sources).catalog, entry.WellFormed := by
  intro entry member
  obtain ⟨_, _, _, _, resolves⟩ := compile_entry_resolves member
  exact CatalogEntry.wellFormed_of_resolve (Schema.ofText_resolved loaded) resolves

/-- A schema with a composite, and the one entry of a source that casts to it: the parameter and the
column are arrays of the composite. -/
theorem compile_wellFormed_composite :
    let type := DataType.composite "c" [⟨"x", .scalar .int4⟩]
    let compiled (schema : Schema) := compile schema {} [⟨.query, "--!q\nselect $1::c[]"⟩]
    ∃ schema, Schema.ofText ("\x7b\"composites\":\x7b\"c\":[\x7b\"name\":\"x\"," ++
        "\"type\":\"int4\"\x7d]\x7d\x7d").toList = .ok schema ∧
      (compiled schema).catalog.map CatalogEntry.name = ["q"] ∧
      (compiled schema).catalog.map (·.parameters.map fun p => (p.key, p.slot, p.type)) =
        [[(.positional 1, 1, .array type)]] ∧
      (compiled schema).catalog.map CatalogEntry.columns = [[⟨"arg1", .array type, false⟩]] ∧
      (compiled schema).catalog.map (·.columns.map ResultColumn.rustType?) =
        [[some "Vec<types::C>"]] ∧
      (compiled schema).catalog.map (fun entry => (entry.rowStruct?, entry.paramsStruct?)) =
        [(some "Q", some "QParams")] ∧
      ∀ entry ∈ (compiled schema).catalog, entry.WellFormed := by
  let schema : Schema := ⟨[], [⟨"c", .composite "c" [⟨"x", .scalar .int4⟩]⟩]⟩
  have loaded : Schema.ofText ("\x7b\"composites\":\x7b\"c\":[\x7b\"name\":\"x\"," ++
      "\"type\":\"int4\"\x7d]\x7d\x7d").toList = .ok schema := by decide +kernel
  exact ⟨schema, loaded, by decide +kernel, by decide +kernel, by decide +kernel, by decide +kernel,
    by decide +kernel, compile_wellFormed loaded _ _⟩

end AnnotatedSql
