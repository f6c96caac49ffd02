import AnnotatedSql.Proofs.Schema.Declaring
import AnnotatedSql.Proofs.Schema.Named
import Mathlib.Data.List.Forall2
import Mathlib.Data.List.Nodup

/-!
# What a schema file declares

Declaring only ever adds types, each under a name that is not taken yet: the enums first, and then
each composite, after those its fields refer to. The relations follow, once all types are known. A
composite under the name of an enum is passed over, as the name is known already.
-/

namespace AnnotatedSql

/-- Schemas with the same types read type names alike. -/
theorem Schema.typeNamed_congr {a b : Schema} (same : a.types = b.types) (name : String) :
    a.typeNamed? name = b.typeNamed? name := by
  have named : a.namedType? = b.namedType? := by
    unfold namedType?
    rw [same]
  have element : a.elementType? = b.elementType? := by
    unfold elementType?
    rw [named]
  have within : ∀ fuel text, a.typeWithin? fuel text = b.typeWithin? fuel text := by
    intro fuel
    induction fuel with
    | zero => intro text; rw [typeWithin?, typeWithin?, element]
    | succ fuel ih =>
      intro text
      rw [typeWithin?, typeWithin?, element]
      cases withoutArraySuffix? (trim text) with
      | none => rfl
      | some inner => exact congrArg (Option.map DataType.array) (ih inner)
  exact within _ _

/-! ## What is declared -/

/-- The column is the one declared, with the type that its type text stands for. -/
structure ColumnDeclaration.Gives (schema : Schema) (declared : ColumnDeclaration)
    (column : Column) : Prop where
  name : column.name = declared.name
  nullable : column.nullable = declared.nullable
  type : schema.typeNamed? declared.typeName = some column.type

/-- The relation is the one declared, with the columns declared for it in their order. -/
structure RelationGiven (schema : Schema) (declared : String × List ColumnDeclaration)
    (relation : Relation) : Prop where
  name : relation.name = declared.1
  columns : List.Forall₂ (ColumnDeclaration.Gives schema) declared.2 relation.columns

/-- The field is the one declared, with the type that its type text stands for among some of the
types, those that were known when it was read. -/
structure FieldDeclaration.Gives (types : List (Field DataType)) (declared : FieldDeclaration)
    (field : Field DataType) : Prop where
  name : field.name = declared.name
  type : ∃ known, known <+: types ∧
    Schema.typeNamed? { types := known } declared.typeName = some field.type

namespace SchemaFile

/-- The enums that the file declares, as types under their names. -/
def enumTypes (file : SchemaFile) : List (Field DataType) :=
  file.enums.map fun enum => ⟨enum.1, .enumeration enum.1 enum.2⟩

/-- The types that the file declares: all its enums in order, and then composites, each with the
fields declared for it in their order. No name is taken twice. -/
inductive Declares (file : SchemaFile) : List (Field DataType) → Prop
  | enums (distinct : (file.enumTypes.map Field.name).Nodup) : Declares file file.enumTypes
  | composite {types : List (Field DataType)} {name : String} {declared : List FieldDeclaration}
      {fields : List (Field DataType)} (earlier : Declares file types)
      (listed : (name, declared) ∈ file.composites) (fresh : name ∉ types.map Field.name)
      (given : List.Forall₂ (FieldDeclaration.Gives types) declared fields) :
      Declares file (types ++ [⟨name, .composite name fields⟩])

/-- The schema has exactly what the file declares. -/
structure Describes (file : SchemaFile) (schema : Schema) : Prop where
  /-- The relations in order, their types read in the schema itself. -/
  relations : List.Forall₂ (RelationGiven schema) file.relations schema.relations
  /-- The enums in order come first. -/
  enums : file.enumTypes <+: schema.types
  /-- Every composite follows, unless its name is that of an enum. -/
  composites : ∀ name declared, (name, declared) ∈ file.composites →
    name ∈ file.enums.map Prod.fst ∨ ∃ fields, ⟨name, .composite name fields⟩ ∈ schema.types ∧
      List.Forall₂ (FieldDeclaration.Gives schema.types) declared fields
  /-- Each name is taken once. -/
  distinct : (schema.types.map Field.name).Nodup
  /-- There is nothing else. -/
  only : ∀ name ∈ schema.types.map Field.name,
    name ∈ file.enums.map Prod.fst ∨ name ∈ file.composites.map Prod.fst

end SchemaFile

/-- What is known remains known. -/
theorem gives_mono {types more : List (Field DataType)} (extends_ : types <+: more)
    {declared : List FieldDeclaration} {fields : List (Field DataType)}
    (given : List.Forall₂ (FieldDeclaration.Gives types) declared fields) :
    List.Forall₂ (FieldDeclaration.Gives more) declared fields := by
  refine given.imp fun _ _ gives => ?_
  obtain ⟨known, earlier, read⟩ := gives.type
  exact ⟨gives.name, known, earlier.trans extends_, read⟩

/-- What a relation is given as depends on the types of the schema alone. -/
theorem RelationGiven.congr {a b : Schema} {declared : String × List ColumnDeclaration}
    {relation : Relation} (given : RelationGiven a declared relation) (same : a.types = b.types) :
    RelationGiven b declared relation :=
  ⟨given.name, given.columns.imp fun _ _ gives =>
    ⟨gives.name, gives.nullable, (Schema.typeNamed_congr same _).symm.trans gives.type⟩⟩

/-- One schema has the types of another and maybe more, and the same relations. -/
structure Schema.Extends (before after : Schema) : Prop where
  relations : after.relations = before.relations
  types : before.types <+: after.types

namespace Schema

theorem Extends.refl (schema : Schema) : schema.Extends schema := ⟨rfl, List.prefix_rfl⟩

theorem Extends.trans {a b c : Schema} (first : a.Extends b) (second : b.Extends c) :
    a.Extends c :=
  ⟨second.relations.trans first.relations, first.types.trans second.types⟩

/-- A type is added at the end, under a name that was free. -/
theorem addType_success {schema after : Schema} {type : DataType} {name : String}
    (named : type.declaredName? = some name) (added : schema.addType type = .ok after) :
    name ∉ schema.types.map Field.name ∧
      after = { schema with types := schema.types ++ [⟨name, type⟩] } := by
  unfold addType at added
  rw [named] at added
  dsimp only at added
  split at added
  · cases added
  next fresh =>
    cases added
    refine ⟨fun member => fresh ?_, rfl⟩
    obtain ⟨taken, listed, same⟩ := List.mem_map.mp member
    exact List.any_eq_true.mpr ⟨taken, listed, by simp [same]⟩

/-- A type is added if its name is free. -/
theorem addType_of_fresh {schema : Schema} {type : DataType} {name : String}
    (named : type.declaredName? = some name) (fresh : name ∉ schema.types.map Field.name) :
    schema.addType type = .ok { schema with types := schema.types ++ [⟨name, type⟩] } := by
  unfold addType
  rw [named]
  refine if_neg fun taken => fresh ?_
  obtain ⟨other, listed, same⟩ := List.any_eq_true.mp taken
  exact List.mem_map.mpr ⟨other, listed, by simpa using same⟩

/-- A relation is added if its name is free. -/
theorem addRelation_of_fresh {schema : Schema} {relation : Relation}
    (fresh : relation.name ∉ schema.relations.map Relation.name) :
    schema.addRelation relation =
      .ok { schema with relations := schema.relations ++ [relation] } := by
  unfold addRelation
  refine if_neg fun taken => fresh ?_
  obtain ⟨other, listed, same⟩ := List.any_eq_true.mp taken
  exact List.mem_map.mpr ⟨other, listed, by simpa using same⟩

/-- A type is turned down only if its name is taken. -/
theorem addType_error {schema : Schema} {type : DataType} {name : String} {fault : SchemaFault}
    (named : type.declaredName? = some name) (fails : schema.addType type = .error fault) :
    name ∈ schema.types.map Field.name := by
  by_contra fresh
  rw [addType_of_fresh named fresh] at fails
  cases fails

/-- A name that is taken is found. -/
theorem namedType_of_mem {schema : Schema} {name : String}
    (taken : name ∈ schema.types.map Field.name) : (schema.namedType? name true).isSome = true := by
  obtain ⟨type, listed, rfl⟩ := List.mem_map.mp taken
  have present : (schema.types.find? fun item => item.name == type.name).isSome = true :=
    List.find?_isSome.mpr ⟨type, listed, by simp⟩
  obtain ⟨found, first⟩ := Option.isSome_iff_exists.mp present
  simp [namedType?, findNamed, first]

/-- A name that is found is taken. -/
theorem mem_of_namedType {schema : Schema} {name : String}
    (found : (schema.namedType? name true).isSome = true) : name ∈ schema.types.map Field.name := by
  unfold namedType? findNamed at found
  cases first : schema.types.find? fun item => item.name == name with
  | none => simp [first] at found
  | some item =>
    have same : item.name = name := by simpa using List.find?_some first
    exact List.mem_map.mpr ⟨item, List.mem_of_find?_eq_some first, same⟩

end Schema

namespace SchemaFile

variable {file : SchemaFile}

/-! ## Types -/

theorem compositeNamed_mem {text : List Char} {name : String}
    (found : file.compositeNamed? text = some name) : name ∈ file.composites.map Prod.fst := by
  unfold compositeNamed? at found
  split at found
  all_goals
    obtain ⟨declared, named, rfl⟩ := Option.map_eq_some_iff.mp found
    exact List.mem_map_of_mem (findNamed_mem named)

/-- The enums are added in order. -/
theorem foldlM_addType_success {enums : List (String × List String)} {schema after : Schema}
    (distinct : (schema.types.map Field.name).Nodup)
    (success : enums.foldlM (fun schema (name, variants) =>
      schema.addType (.enumeration name variants)) schema = .ok after) :
    after = { schema with
        types := schema.types ++ enums.map fun enum => ⟨enum.1, .enumeration enum.1 enum.2⟩ } ∧
      (after.types.map Field.name).Nodup := by
  induction enums generalizing schema with
  | nil =>
    cases success
    exact ⟨by simp, distinct⟩
  | cons enum rest ih =>
    rw [List.foldlM_cons] at success
    obtain ⟨middle, added, success⟩ := bind_success success
    obtain ⟨fresh, rfl⟩ := Schema.addType_success rfl added
    have grown : (schema.types.map Field.name ++ [enum.1]).Nodup := by
      rw [List.nodup_append]
      refine ⟨distinct, by simp, fun taken member other last => ?_⟩
      rw [List.mem_singleton.mp last]
      rintro rfl
      exact fresh member
    obtain ⟨rfl, final⟩ := ih (by simpa using grown) success
    exact ⟨by simp, final⟩

theorem declareEnums_success {after : Schema} (success : file.declareEnums {} = .ok after) :
    after = { types := file.enumTypes } ∧ file.Declares after.types := by
  have free : (({} : Schema).types.map Field.name).Nodup := by simp
  obtain ⟨rfl, distinct⟩ := foldlM_addType_success free success
  exact ⟨rfl, .enums distinct⟩

/-- Resolving fields adds the composites they refer to; the fields are those declared. -/
theorem defineFields_success {define : Schema → String → Except SchemaFault Schema}
    {owner : String}
    (defined : ∀ before name after, file.Declares before.types →
      name ∈ file.composites.map Prod.fst → define before name = .ok after →
      before.Extends after ∧ file.Declares after.types)
    {declared : List FieldDeclaration} {schema after : Schema} {fields : List (Field DataType)}
    (declares : file.Declares schema.types)
    (success : file.defineFields define owner schema declared = .ok (after, fields)) :
    schema.Extends after ∧ file.Declares after.types ∧
      List.Forall₂ (FieldDeclaration.Gives after.types) declared fields := by
  induction declared generalizing schema fields with
  | nil =>
    cases success
    exact ⟨.refl _, declares, .nil⟩
  | cons field rest ih =>
    obtain ⟨ready, type, others, prepared, read, remaining, rfl⟩ :=
      defineFields_cons_success success
    have step : schema.Extends ready ∧ file.Declares ready.types := by
      unfold prepare at prepared
      split at prepared
      next found => exact defined _ _ _ declares (compositeNamed_mem found) prepared
      · cases prepared
        exact ⟨.refl _, declares⟩
    obtain ⟨extended, readyDeclares⟩ := step
    obtain ⟨further, finalDeclares, given⟩ := ih readyDeclares remaining
    have same := Schema.typeNamed_congr (a := { types := ready.types }) (b := ready) rfl
    exact ⟨extended.trans further, finalDeclares,
      .cons ⟨rfl, ready.types, further.types, (same _).trans read⟩ given⟩

theorem exists_lookup {name : String} (listed : name ∈ file.composites.map Prod.fst) :
    ∃ declared, file.composites.lookup name = some declared ∧
      (name, declared) ∈ file.composites := by
  cases found : file.composites.lookup name with
  | none =>
    obtain ⟨composite, member, rfl⟩ := List.mem_map.mp listed
    simpa using List.lookup_eq_none_iff.mp found composite member
  | some declared =>
    obtain ⟨before, after, whole, _⟩ := List.lookup_eq_some_iff.mp found
    exact ⟨declared, rfl, by rw [whole]; simp⟩

/-- Declaring a composite adds those it depends on and then itself. -/
theorem defineComposite_success {fuel : Nat} {resolving : List String} {schema after : Schema}
    {name : String} (declares : file.Declares schema.types)
    (listed : name ∈ file.composites.map Prod.fst)
    (success : file.defineComposite fuel resolving schema name = .ok after) :
    schema.Extends after ∧ file.Declares after.types ∧ name ∈ after.types.map Field.name := by
  induction fuel generalizing resolving schema name after with
  | zero =>
    rcases defineComposite_cases success with ⟨known, rfl⟩ | ⟨_, _, _, more, _⟩
    · exact ⟨.refl _, declares, Schema.mem_of_namedType known⟩
    · cases more
  | succ fuel ih =>
    rcases defineComposite_cases success with
      ⟨known, rfl⟩ | ⟨_, ready, fields, more, _, defined, added⟩
    · exact ⟨.refl _, declares, Schema.mem_of_namedType known⟩
    · cases more
      obtain ⟨extended, readyDeclares, given⟩ := defineFields_success
        (fun _ _ _ declares listed defined =>
          ((ih declares listed defined).imp_right And.left)) declares defined
      obtain ⟨fresh, rfl⟩ := Schema.addType_success rfl added
      obtain ⟨declared, found, member⟩ := exists_lookup listed
      rw [found, Option.getD_some] at given
      exact ⟨extended.trans ⟨rfl, List.prefix_append _ _⟩,
        .composite readyDeclares member fresh given, by simp⟩

/-- Declaring all composites leaves none out. -/
theorem declareComposites_success {schema after : Schema} (declares : file.Declares schema.types)
    (success : file.declareComposites schema = .ok after) :
    schema.Extends after ∧ file.Declares after.types ∧
      ∀ name ∈ file.composites.map Prod.fst, name ∈ after.types.map Field.name := by
  have run : ∀ composites, composites ⊆ file.composites → ∀ schema : Schema,
      file.Declares schema.types →
      composites.foldlM (fun schema composite =>
        defineComposite file file.composites.length [] schema composite.1) schema = .ok after →
      schema.Extends after ∧ file.Declares after.types ∧
        ∀ name ∈ composites.map Prod.fst, name ∈ after.types.map Field.name := by
    intro composites
    induction composites with
    | nil =>
      intro _ schema declares success
      cases success
      exact ⟨.refl _, declares, by simp⟩
    | cons composite rest ih =>
      intro listed schema declares success
      rw [List.foldlM_cons] at success
      obtain ⟨middle, defined, success⟩ := bind_success success
      obtain ⟨extended, middleDeclares, named⟩ := defineComposite_success declares
        (List.mem_map_of_mem (listed List.mem_cons_self)) defined
      obtain ⟨further, final, others⟩ :=
        ih (fun _ member => listed (List.mem_cons_of_mem _ member)) middle middleDeclares success
      refine ⟨extended.trans further, final, fun name member => ?_⟩
      rcases List.mem_cons.mp member with rfl | member
      · exact (further.types.map Field.name).subset named
      · exact others name member
  exact run file.composites (fun _ member => member) schema declares success

/-! ## Relations -/

theorem resolveRelation_success {schema : Schema} {name : String}
    {columns : List ColumnDeclaration} {relation : Relation}
    (success : resolveRelation schema name columns = .ok relation) :
    RelationGiven schema (name, columns) relation := by
  obtain ⟨typed, passed, success⟩ := bind_success success
  cases success
  refine ⟨rfl, forall₂_of_mapM (fun declared column read => ?_) passed⟩
  obtain ⟨type, found, read⟩ := bind_success read
  cases read
  exact ⟨rfl, rfl, resolveType_success found⟩

/-- The relations are added in order, and no type is. -/
theorem declareRelations_success {schema after : Schema}
    (success : file.declareRelations schema = .ok after) :
    after.types = schema.types ∧ ∃ added, after.relations = schema.relations ++ added ∧
      List.Forall₂ (RelationGiven schema) file.relations added := by
  unfold declareRelations at success
  generalize file.relations = relations at success
  induction relations generalizing schema with
  | nil =>
    cases success
    exact ⟨rfl, [], by simp, .nil⟩
  | cons declared rest ih =>
    rw [List.foldlM_cons] at success
    obtain ⟨middle, first, success⟩ := bind_success success
    obtain ⟨relation, resolved, added⟩ := bind_success first
    unfold Schema.addRelation at added
    split at added
    · cases added
    · cases added
      obtain ⟨types, others, relations, given⟩ := ih success
      refine ⟨types, relation :: others, by simp [relations], ?_⟩
      exact .cons (resolveRelation_success resolved) (given.imp fun _ _ given => given.congr rfl)

/-! ## The whole file -/

theorem enumTypes_names (file : SchemaFile) :
    file.enumTypes.map Field.name = file.enums.map Prod.fst := by
  simp [enumTypes]

namespace Declares

variable {types : List (Field DataType)}

theorem distinct (declares : file.Declares types) : (types.map Field.name).Nodup := by
  induction declares with
  | enums distinct => exact distinct
  | composite _ _ fresh _ ih =>
    rw [List.map_append, List.nodup_append]
    refine ⟨ih, by simp, fun taken member other last => ?_⟩
    rw [List.mem_singleton.mp last]
    rintro rfl
    exact fresh member

theorem enumTypes_prefix (declares : file.Declares types) : file.enumTypes <+: types := by
  induction declares with
  | enums _ => exact List.prefix_rfl
  | composite _ _ _ _ ih => exact ih.trans (List.prefix_append _ _)

/-- A type is an enum or a composite as declared. -/
theorem cases {type : Field DataType} (declares : file.Declares types) (member : type ∈ types) :
    type ∈ file.enumTypes ∨ ∃ declared fields, (type.name, declared) ∈ file.composites ∧
      type = ⟨type.name, .composite type.name fields⟩ ∧
      List.Forall₂ (FieldDeclaration.Gives types) declared fields := by
  induction declares with
  | enums _ => exact Or.inl member
  | composite _ listed _ given ih =>
    rcases List.mem_append.mp member with old | new
    · refine (ih old).imp_right ?_
      rintro ⟨declared, fields, listed, same, given⟩
      exact ⟨declared, fields, listed, same, gives_mono (List.prefix_append _ _) given⟩
    · obtain rfl := List.mem_singleton.mp new
      exact Or.inr ⟨_, _, listed, rfl, gives_mono (List.prefix_append _ _) given⟩

end Declares

/-- What a file declares under distinct names is what a schema built from it has, but for
composites under the name of an enum. -/
theorem build_describes {file : SchemaFile} (unique : (file.composites.map Prod.fst).Nodup)
    {schema : Schema} (success : file.build = .ok schema) : file.Describes schema := by
  obtain ⟨enums, enumerated, composing⟩ := bind_success success
  obtain ⟨types, composed, relating⟩ := bind_success composing
  obtain ⟨rfl, enumsDeclared⟩ := declareEnums_success enumerated
  obtain ⟨extended, declares, named⟩ := declareComposites_success enumsDeclared composed
  obtain ⟨same, added, relations, given⟩ := declareRelations_success relating
  rw [extended.relations, List.nil_append] at relations
  rw [← same] at declares named
  refine ⟨?_, declares.enumTypes_prefix, fun name declared listed => ?_, declares.distinct,
    fun name member => ?_⟩
  · rw [relations]
    exact given.imp fun _ _ given => given.congr same.symm
  · obtain ⟨type, member, rfl⟩ := List.mem_map.mp (named name (List.mem_map_of_mem listed))
    rcases declares.cases member with enum | ⟨others, fields, otherListed, whole, given⟩
    · exact Or.inl (file.enumTypes_names ▸ List.mem_map_of_mem enum)
    · have only := List.inj_on_of_nodup_map unique listed otherListed rfl
      obtain rfl : declared = others := congrArg Prod.snd only
      exact Or.inr ⟨fields, whole ▸ member, given⟩
  · obtain ⟨type, taken, rfl⟩ := List.mem_map.mp member
    rcases declares.cases taken with enum | ⟨_, _, listed, _, _⟩
    · exact Or.inl (file.enumTypes_names ▸ List.mem_map_of_mem enum)
    · exact Or.inr (List.mem_map_of_mem listed)

/-- A composite that is declared before the one its field refers to, an enum and a relation. -/
theorem build_describes_reordered :
    let file : SchemaFile := {
      relations := [("t", [⟨"c", "outer_t[]", false⟩, ⟨"m", "mood", true⟩])]
      composites := [("outer_t", [⟨"i", "inner_t"⟩]), ("inner_t", [⟨"n", "integer"⟩])]
      enums := [("mood", ["happy", "sad"])] }
    (file.composites.map Prod.fst).Nodup ∧ ∃ schema, file.build = .ok schema ∧
      schema.types.map Field.name = ["mood", "inner_t", "outer_t"] ∧ file.Describes schema := by
  intro file
  have unique : (file.composites.map Prod.fst).Nodup := by decide
  let inner : DataType := .composite "inner_t" [⟨"n", .scalar .int4⟩]
  let outer : DataType := .composite "outer_t" [⟨"i", inner⟩]
  let mood : DataType := .enumeration "mood" ["happy", "sad"]
  have built : file.build = .ok ⟨[⟨"t", [⟨"c", .array outer, false⟩, ⟨"m", mood, true⟩]⟩],
      [⟨"mood", mood⟩, ⟨"inner_t", inner⟩, ⟨"outer_t", outer⟩]⟩ := by decide +kernel
  exact ⟨unique, _, built, rfl, build_describes unique built⟩

/-- A composite under the name of an enum is lost without a fault. -/
theorem enum_hides_composite :
    let file : SchemaFile := { composites := [("a", [⟨"x", "int4"⟩])], enums := [("a", ["v"])] }
    ∃ schema, file.build = .ok schema ∧ ¬∃ fields,
      (⟨"a", .composite "a" fields⟩ : Field DataType) ∈ schema.types := by
  intro file
  have built : file.build = .ok ⟨[], [⟨"a", .enumeration "a" ["v"]⟩]⟩ := by decide +kernel
  exact ⟨_, built, by simp⟩

end SchemaFile

end AnnotatedSql
