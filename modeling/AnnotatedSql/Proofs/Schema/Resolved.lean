import AnnotatedSql.Proofs.Schema.Declaring
import AnnotatedSql.Proofs.Schema.Named
import AnnotatedSql.Schema.Reader

/-!
# Known types

A schema that a file declares holds known types only, down to the fields of its composites, and so
does every type that a name stands for in it. The invariant is carried through the recursive
declaration of composites.
-/

namespace AnnotatedSql

theorem fieldsResolved_iff (fields : List (Field DataType)) :
    DataType.fieldsResolved fields = true ↔ ∀ field ∈ fields, field.type.isResolved = true := by
  induction fields with
  | nil => simp [DataType.fieldsResolved]
  | cons field rest ih => simp [DataType.fieldsResolved, ih]

namespace DataType

/-- What a type is made of: itself, the elements of arrays, the fields of composites. -/
inductive Part : DataType → DataType → Prop
  | whole (type : DataType) : Part type type
  | element {type part : DataType} (inside : Part type part) : Part (array type) part
  | field {name : String} {fields : List (Field DataType)} {field : Field DataType}
      {part : DataType} (listed : field ∈ fields) (inside : Part field.type part) :
      Part (composite name fields) part

/-- A type is known if the unknown type is no part of it. -/
theorem ne_unresolved_of_part {type part : DataType} (inside : type.Part part)
    (known : type.isResolved = true) : part ≠ .unresolved := by
  induction inside with
  | whole type =>
    rintro rfl
    cases known
  | element _ ih => exact ih (by simpa only [isResolved] using known)
  | field listed _ ih =>
    simp only [isResolved] at known
    exact ih ((fieldsResolved_iff _).mp known _ listed)

end DataType

/-- A known type has a Rust type. -/
theorem rustType_of_resolved (type : DataType) (known : type.isResolved = true) :
    ∃ text, type.rustType? = some text := by
  induction type using DataType.rustType?.induct with
  | case4 element ih =>
    obtain ⟨text, found⟩ := ih (by simpa [DataType.isResolved] using known)
    exact ⟨"Vec<" ++ text ++ ">", by simp [DataType.rustType?, found]⟩
  | case5 => simp [DataType.isResolved] at known
  | _ => simp [DataType.rustType?]

/-- A field of a known composite is known. -/
theorem field_resolved {type : DataType} {name : String} {field : Field DataType}
    (known : type.isResolved = true) (found : type.field? name = some field) :
    field.type.isResolved = true := by
  cases type with
  | composite _ fields =>
    have member : field ∈ fields := by
      unfold DataType.field? at found
      cases written : fields.find? (·.name == name) with
      | some other =>
        simp only [written, Option.orElse_eq_orElse, Option.orElse_some] at found
        cases found
        exact List.mem_of_find?_eq_some written
      | none =>
        simp only [written, Option.orElse_eq_orElse, Option.orElse_none] at found
        exact List.mem_of_find?_eq_some found
    exact (fieldsResolved_iff fields).mp known field member
  | _ => cases found

namespace Schema

/-- Every type that the schema holds is known. -/
structure Resolved (schema : Schema) : Prop where
  columns : ∀ relation ∈ schema.relations, ∀ column ∈ relation.columns,
    column.type.isResolved = true
  types : ∀ declared ∈ schema.types, declared.type.isResolved = true

namespace Resolved

theorem empty : Resolved {} := ⟨by simp, by simp⟩

/-- Every type that the schema offers is known. -/
theorem offered {schema : Schema} (resolved : schema.Resolved) {type : DataType}
    (offered : schema.Offers type) : type.isResolved = true := by
  induction offered with
  | scalar kind => rfl
  | column known member => exact resolved.columns _ known _ member
  | declared member => exact resolved.types _ member
  | array _ ih => simpa only [DataType.isResolved] using ih
  | field _ found ih => exact field_resolved ih found

theorem addType {schema after : Schema} (resolved : schema.Resolved) {type : DataType}
    (known : type.isResolved = true) (added : schema.addType type = .ok after) :
    after.Resolved := by
  unfold Schema.addType at added
  split at added
  · cases added
  · split at added
    · cases added
    · cases added
      refine ⟨resolved.columns, fun declared member => ?_⟩
      rcases List.mem_append.mp member with old | new
      · exact resolved.types declared old
      · obtain rfl := List.mem_singleton.mp new
        exact known

theorem addRelation {schema after : Schema} (resolved : schema.Resolved) {relation : Relation}
    (known : ∀ column ∈ relation.columns, column.type.isResolved = true)
    (added : schema.addRelation relation = .ok after) : after.Resolved := by
  unfold Schema.addRelation at added
  split at added
  · cases added
  · cases added
    refine ⟨fun other member => ?_, resolved.types⟩
    rcases List.mem_append.mp member with old | new
    · exact resolved.columns other old
    · obtain rfl := List.mem_singleton.mp new
      exact known

end Resolved

end Schema

namespace SchemaFile

open Schema

theorem resolveType_resolved {schema : Schema} (resolved : schema.Resolved)
    {owner name typeName : String} {type : DataType}
    (success : resolveType schema owner name typeName = .ok type) : type.isResolved = true :=
  resolved.offered (.typeNamed (resolveType_success success))

theorem declareEnums_resolved {file : SchemaFile} {schema after : Schema}
    (resolved : schema.Resolved) (success : file.declareEnums schema = .ok after) :
    after.Resolved :=
  foldlM_keeps Schema.Resolved (fun _ _ _ _ kept added => kept.addType rfl added) resolved success

/-- If declaring a dependency keeps the schema known, so does resolving a list of fields, and the
fields are known. -/
theorem defineFields_resolved {file : SchemaFile}
    {define : Schema → String → Except SchemaFault Schema} {owner : String}
    (defineKeeps : ∀ before name after, before.Resolved → define before name = .ok after →
      after.Resolved)
    {declared : List FieldDeclaration} {schema after : Schema} {fields : List (Field DataType)}
    (resolved : schema.Resolved)
    (success : file.defineFields define owner schema declared = .ok (after, fields)) :
    after.Resolved ∧ ∀ field ∈ fields, field.type.isResolved = true := by
  induction declared generalizing schema fields with
  | nil =>
    cases success
    exact ⟨resolved, by simp⟩
  | cons field rest ih =>
    obtain ⟨ready, type, others, prepared, typed, remaining, rfl⟩ :=
      defineFields_cons_success success
    have readyResolved : ready.Resolved := by
      unfold prepare at prepared
      split at prepared
      · exact defineKeeps _ _ _ resolved prepared
      · cases prepared
        exact resolved
    obtain ⟨finalResolved, othersResolved⟩ := ih readyResolved remaining
    refine ⟨finalResolved, fun other member => ?_⟩
    rcases List.mem_cons.mp member with rfl | member
    · exact readyResolved.offered (.typeNamed typed)
    · exact othersResolved other member

theorem defineComposite_resolved {file : SchemaFile} {fuel : Nat} {resolving : List String}
    {schema after : Schema} {name : String} (resolved : schema.Resolved)
    (success : file.defineComposite fuel resolving schema name = .ok after) : after.Resolved := by
  induction fuel generalizing resolving schema name after with
  | zero =>
    rcases defineComposite_cases success with ⟨_, rfl⟩ | ⟨_, _, _, more, _⟩
    · exact resolved
    · cases more
  | succ fuel ih =>
    rcases defineComposite_cases success with
      ⟨_, rfl⟩ | ⟨_, ready, fields, more, _, defined, added⟩
    · exact resolved
    · cases more
      obtain ⟨readyResolved, fieldsKnown⟩ :=
        defineFields_resolved (fun _ _ _ kept defined => ih kept defined) resolved defined
      have known : (DataType.composite name fields).isResolved = true := by
        simpa only [DataType.isResolved] using (fieldsResolved_iff fields).mpr fieldsKnown
      exact readyResolved.addType known added

theorem declareComposites_resolved {file : SchemaFile} {schema after : Schema}
    (resolved : schema.Resolved) (success : file.declareComposites schema = .ok after) :
    after.Resolved :=
  foldlM_keeps Schema.Resolved (fun _ _ _ _ kept defined => defineComposite_resolved kept defined)
    resolved success

theorem resolveRelation_resolved {schema : Schema} (resolved : schema.Resolved) {name : String}
    {columns : List ColumnDeclaration} {relation : Relation}
    (success : resolveRelation schema name columns = .ok relation) :
    ∀ column ∈ relation.columns, column.type.isResolved = true := by
  obtain ⟨typed, passed, success⟩ := bind_success success
  cases success
  intro column member
  obtain ⟨declared, _, accepted⟩ := mapM_mem passed member
  obtain ⟨type, found, accepted⟩ := bind_success accepted
  cases accepted
  exact resolveType_resolved resolved found

theorem declareRelations_resolved {file : SchemaFile} {schema after : Schema}
    (resolved : schema.Resolved) (success : file.declareRelations schema = .ok after) :
    after.Resolved := by
  refine foldlM_keeps Schema.Resolved (fun before next item _ kept declared => ?_) resolved success
  obtain ⟨relation, typed, added⟩ := bind_success declared
  exact kept.addRelation (resolveRelation_resolved kept typed) added

/-- Building a schema leaves no type unknown. -/
theorem build_resolved {file : SchemaFile} {schema : Schema} (success : file.build = .ok schema) :
    schema.Resolved := by
  obtain ⟨enums, enumerated, success⟩ := bind_success success
  obtain ⟨types, composed, success⟩ := bind_success success
  have enumsResolved := declareEnums_resolved Resolved.empty enumerated
  have typesResolved := declareComposites_resolved enumsResolved composed
  exact declareRelations_resolved typesResolved success

end SchemaFile

/-- A schema that was read from text holds known types only. -/
theorem Schema.ofText_resolved {text : List Char} {schema : Schema}
    (loaded : Schema.ofText text = .ok schema) : schema.Resolved := by
  unfold Schema.ofText at loaded
  split at loaded
  · cases loaded
  · split at loaded
    · cases loaded
    next built =>
      cases loaded
      exact SchemaFile.build_resolved built

end AnnotatedSql
