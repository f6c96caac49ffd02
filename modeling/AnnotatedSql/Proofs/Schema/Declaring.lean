import AnnotatedSql.Proofs.Outcome
import AnnotatedSql.Schema.File

/-!
# Steps of declaring composites

The next field of a composite is read once the composite it refers to is declared. A composite that
is not known yet is added after its fields are read, unless it is being declared already.
-/

namespace AnnotatedSql.SchemaFile

variable {file : SchemaFile} {define : Schema → String → Except SchemaFault Schema}
  {owner : String} {schema after : Schema} {field : FieldDeclaration}
  {rest : List FieldDeclaration}

/-- Declares the composite that a type text refers to, if there is one. -/
def prepare (file : SchemaFile) (define : Schema → String → Except SchemaFault Schema)
    (schema : Schema) (typeName : String) : Except SchemaFault Schema :=
  match file.compositeNamed? (elementText typeName) with
  | some dependency => define schema dependency
  | none => .ok schema

theorem defineFields_cons :
    file.defineFields define owner schema (field :: rest) =
      (file.prepare define schema field.typeName >>= fun ready =>
        resolveType ready owner field.name field.typeName >>= fun type =>
          file.defineFields define owner ready rest >>= fun others =>
            .ok (others.1, ⟨field.name, type⟩ :: others.2)) := by
  rw [defineFields, prepare]
  cases file.compositeNamed? (elementText field.typeName) with
  | none => rfl
  | some dependency => rfl

theorem resolveType_success {owner name typeName : String} {type : DataType}
    (success : resolveType schema owner name typeName = .ok type) :
    schema.typeNamed? typeName = some type := by
  unfold resolveType at success
  split at success
  next found =>
    cases success
    exact found
  next => cases success

theorem resolveType_error {owner name typeName : String} {fault : SchemaFault}
    (fails : resolveType schema owner name typeName = .error fault) :
    schema.typeNamed? typeName = none := by
  unfold resolveType at fails
  split at fails
  · cases fails
  next missing => exact missing

/-- The first field is read, and then the others. -/
theorem defineFields_cons_success {fields : List (Field DataType)}
    (success : file.defineFields define owner schema (field :: rest) = .ok (after, fields)) :
    ∃ ready type others, file.prepare define schema field.typeName = .ok ready ∧
      ready.typeNamed? field.typeName = some type ∧
      file.defineFields define owner ready rest = .ok (after, others) ∧
      fields = ⟨field.name, type⟩ :: others := by
  rw [defineFields_cons] at success
  obtain ⟨ready, prepared, success⟩ := bind_success success
  obtain ⟨type, typed, success⟩ := bind_success success
  obtain ⟨⟨final, others⟩, remaining, success⟩ := bind_success success
  cases success
  exact ⟨ready, type, others, prepared, resolveType_success typed, remaining, rfl⟩

/-- Reading the fields fails at the composite that the first one refers to, at its type, or at
one of the others. -/
theorem defineFields_cons_error {fault : SchemaFault}
    (fails : file.defineFields define owner schema (field :: rest) = .error fault) :
    file.prepare define schema field.typeName = .error fault ∨
      ∃ ready, file.prepare define schema field.typeName = .ok ready ∧
        (ready.typeNamed? field.typeName = none ∨
          file.defineFields define owner ready rest = .error fault) := by
  rw [defineFields_cons] at fails
  rcases bind_error fails with fails | ⟨ready, prepared, fails⟩
  · exact Or.inl fails
  · refine Or.inr ⟨ready, prepared, ?_⟩
    rcases bind_error fails with fails | ⟨type, _, fails⟩
    · exact Or.inl (resolveType_error fails)
    · rcases bind_error fails with fails | ⟨others, _, fails⟩
      · exact Or.inr fails
      · cases fails

/-- Reading fields keeps what declaring a composite keeps. -/
theorem defineFields_keeps (keeps : Schema → Prop)
    (defineKeeps : ∀ before name after, keeps before → define before name = .ok after → keeps after)
    {declared : List FieldDeclaration} {fields : List (Field DataType)} (begins : keeps schema)
    (success : file.defineFields define owner schema declared = .ok (after, fields)) :
    keeps after := by
  induction declared generalizing schema fields with
  | nil =>
    cases success
    exact begins
  | cons field rest ih =>
    obtain ⟨ready, _, _, prepared, _, remaining, _⟩ := defineFields_cons_success success
    have kept : keeps ready := by
      unfold prepare at prepared
      split at prepared
      · exact defineKeeps _ _ _ begins prepared
      · cases prepared
        exact begins
    exact ih kept remaining

variable {fuel : Nat} {resolving : List String} {name : String}

/-- Declaring a composite leaves one that is known as it is, and adds any other. -/
theorem defineComposite_cases
    (success : file.defineComposite fuel resolving schema name = .ok after) :
    ((schema.namedType? name true).isSome = true ∧ after = schema) ∨
      ∃ less ready fields, fuel = less + 1 ∧ name ∉ resolving ∧
        file.defineFields (file.defineComposite less (name :: resolving)) name schema
          ((file.composites.lookup name).getD []) = .ok (ready, fields) ∧
        ready.addType (.composite name fields) = .ok after := by
  unfold defineComposite at success
  split at success
  next known =>
    cases success
    exact Or.inl ⟨known, rfl⟩
  · split at success
    · cases success
    next free =>
      cases fuel with
      | zero => cases success
      | succ less =>
        obtain ⟨⟨ready, fields⟩, defined, added⟩ := bind_success success
        exact Or.inr ⟨less, ready, fields, rfl, by simpa using free, defined, added⟩

/-- Declaring a composite fails if it is being declared already, or at one of its fields, or because
its name is taken. -/
theorem defineComposite_error {fault : SchemaFault}
    (fails : file.defineComposite fuel resolving schema name = .error fault) :
    (schema.namedType? name true).isSome = false ∧
      ((fault = .recursiveComposite name ∧ (name ∈ resolving ∨ fuel = 0)) ∨
      ∃ less, fuel = less + 1 ∧ name ∉ resolving ∧
        (file.defineFields (file.defineComposite less (name :: resolving)) name schema
            ((file.composites.lookup name).getD []) = .error fault ∨
          ∃ ready fields, file.defineFields (file.defineComposite less (name :: resolving)) name
              schema ((file.composites.lookup name).getD []) = .ok (ready, fields) ∧
            ready.addType (.composite name fields) = .error fault)) := by
  unfold defineComposite at fails
  split at fails
  · cases fails
  next unknown =>
    refine ⟨by simpa using unknown, ?_⟩
    split at fails
    next circle =>
      cases fails
      exact Or.inl ⟨rfl, Or.inl (by simpa using circle)⟩
    next free =>
      cases fuel with
      | zero =>
        cases fails
        exact Or.inl ⟨rfl, Or.inr rfl⟩
      | succ less =>
        refine Or.inr ⟨less, rfl, by simpa using free, ?_⟩
        rcases bind_error fails with fails | ⟨⟨ready, fields⟩, defined, fails⟩
        · exact Or.inl fails
        · exact Or.inr ⟨ready, fields, defined, fails⟩

end AnnotatedSql.SchemaFile
