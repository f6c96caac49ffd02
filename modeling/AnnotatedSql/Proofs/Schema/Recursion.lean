import AnnotatedSql.Proofs.Schema.Declared
import AnnotatedSql.Proofs.Schema.Reference
import Mathlib.Data.List.Chain
import Mathlib.Data.List.Perm.Subperm
import Mathlib.Logic.Relation

/-!
# Composites in a circle

A composite depends on those that the types of its fields refer to. The composites being declared
form a path of this relation, so a composite that is met again closes a circle. Nothing else can go
wrong where every type text refers to something: then the schema is built exactly if there is no
circle.
-/

namespace AnnotatedSql

namespace SchemaFile

/-! ## Dependencies -/

/-- The names of the types that the file declares. -/
def declaredNames (file : SchemaFile) : List String :=
  file.enums.map Prod.fst ++ file.composites.map Prod.fst

/-- The type text is that of a base type or spells a declared name. -/
def Knows (file : SchemaFile) (typeName : String) : Prop :=
  namesScalar typeName = true ∨ ∃ name ∈ file.declaredNames, spells (baseText typeName) name = true

/-- The type text refers to the composite. Base types come first. -/
def RefersTo (file : SchemaFile) (typeName name : String) : Prop :=
  namesScalar typeName = false ∧ name ∈ file.composites.map Prod.fst ∧
    spells (baseText typeName) name = true

/-- The composite `owner` has a field whose type text refers to the composite `name`. -/
def DependsOn (file : SchemaFile) (owner name : String) : Prop :=
  ∃ declared, (owner, declared) ∈ file.composites ∧
    ∃ field ∈ declared, file.RefersTo field.typeName name

/-- Some composite depends on itself, through any number of others. -/
def Cyclic (file : SchemaFile) : Prop := ∃ name, Relation.TransGen file.DependsOn name name

/-- Names are distinct, those of types also when case is ignored, and every type text is that of a
base type or of a declared one. -/
structure WellNamed (file : SchemaFile) : Prop where
  relations : (file.relations.map Prod.fst).Nodup
  apart : NamesApart id file.declaredNames
  columns : ∀ relation ∈ file.relations, ∀ column ∈ relation.2, file.Knows column.typeName
  fields : ∀ composite ∈ file.composites, ∀ field ∈ composite.2, file.Knows field.typeName

/-- The type text of a field spells a composite, once the array suffixes are taken off its end, just
if it refers to that composite. This excludes a modifier after the name of a composite, blanks
between the array suffixes of one, and a composite under the name of a base type. -/
def PlainlySpelled (file : SchemaFile) : Prop :=
  ∀ composite ∈ file.composites, ∀ field ∈ composite.2, ∀ name ∈ file.composites.map Prod.fst,
    spells (elementText field.typeName) name = true ↔ file.RefersTo field.typeName name

instance (file : SchemaFile) (typeName : String) : Decidable (file.Knows typeName) :=
  inferInstanceAs (Decidable (_ ∨ _))

instance (file : SchemaFile) (typeName name : String) : Decidable (file.RefersTo typeName name) :=
  inferInstanceAs (Decidable (_ ∧ _))

instance (file : SchemaFile) : Decidable file.PlainlySpelled :=
  inferInstanceAs (Decidable (∀ _ ∈ _, ∀ _ ∈ _, ∀ _ ∈ _, _))

variable {file : SchemaFile}

namespace WellNamed

/-- Declared names that differ at most in case are the same. -/
theorem same (wellNamed : file.WellNamed) {a b : String} (first : a ∈ file.declaredNames)
    (second : b ∈ file.declaredNames) (folded : equalFold a b = true) : a = b :=
  wellNamed.apart.eq first second folded

theorem distinct (wellNamed : file.WellNamed) : file.declaredNames.Nodup :=
  wellNamed.apart.imp fun other same => by simp [same] at other

theorem composites_distinct (wellNamed : file.WellNamed) :
    (file.composites.map Prod.fst).Nodup :=
  (List.nodup_append.mp wellNamed.distinct).2.1

/-- A name has one declaration. -/
theorem declaration_unique (wellNamed : file.WellNamed) {name : String}
    {a b : List FieldDeclaration} (first : (name, a) ∈ file.composites)
    (second : (name, b) ∈ file.composites) : a = b :=
  congrArg Prod.snd (List.inj_on_of_nodup_map wellNamed.composites_distinct first second rfl)

theorem composite_not_enum (wellNamed : file.WellNamed) {name : String}
    (composite : name ∈ file.composites.map Prod.fst) : name ∉ file.enums.map Prod.fst :=
  fun enum => (List.nodup_append.mp wellNamed.distinct).2.2 name enum name composite rfl

end WellNamed

theorem mem_declaredNames {name : String} (composite : name ∈ file.composites.map Prod.fst) :
    name ∈ file.declaredNames :=
  List.mem_append_right _ composite

theorem compositeNamed?_eq (file : SchemaFile) (text : List Char) :
    file.compositeNamed? text = (findSpelled Prod.fst file.composites text).map Prod.fst := by
  unfold compositeNamed? findSpelled
  cases unquoted? text with
  | some inner => rfl
  | none => rfl

theorem spells_of_compositeNamed {text : List Char} {name : String}
    (found : file.compositeNamed? text = some name) : spells text name = true := by
  rw [compositeNamed?_eq] at found
  obtain ⟨composite, first, rfl⟩ := Option.map_eq_some_iff.mp found
  exact findSpelled_spells first

/-- The composite that is looked for before a field is read is the one its type text refers to. -/
theorem compositeNamed?_iff (wellNamed : file.WellNamed) (plain : file.PlainlySpelled)
    {composite : String × List FieldDeclaration} (listed : composite ∈ file.composites)
    {field : FieldDeclaration} (member : field ∈ composite.2) (name : String) :
    file.compositeNamed? (elementText field.typeName) = some name ↔
      file.RefersTo field.typeName name := by
  have spelledIff := plain composite listed field member
  constructor
  · intro found
    exact (spelledIff name (compositeNamed_mem found)).mp (spells_of_compositeNamed found)
  · intro refers
    obtain ⟨declared, declaredListed, rfl⟩ := List.mem_map.mp refers.2.1
    have spelled := (spelledIff _ refers.2.1).mpr refers
    obtain ⟨found, first⟩ := findSpelled_isSome declaredListed spelled
    have same : found.1 = declared.1 := wellNamed.same
      (mem_declaredNames (List.mem_map_of_mem (findSpelled_mem first)))
      (mem_declaredNames (List.mem_map_of_mem declaredListed))
      (equalFold_of_spells (findSpelled_spells first) spelled)
    rw [compositeNamed?_eq, first, Option.map_some, same]

/-! ## What is known -/

/-- Every enum is known from the start. -/
theorem Declares.enum_mem {types : List (Field DataType)} (declares : file.Declares types)
    {name : String} (enum : name ∈ file.enums.map Prod.fst) : name ∈ types.map Field.name := by
  rw [← enumTypes_names] at enum
  exact (declares.enumTypes_prefix.map Field.name).subset enum

theorem Declares.name_mem {types : List (Field DataType)} (declares : file.Declares types)
    {name : String} (known : name ∈ types.map Field.name) : name ∈ file.declaredNames := by
  obtain ⟨type, member, rfl⟩ := List.mem_map.mp known
  rcases declares.cases member with enum | ⟨_, _, listed, _, _⟩
  · exact List.mem_append_left _ (file.enumTypes_names ▸ List.mem_map_of_mem enum)
  · exact mem_declaredNames (List.mem_map_of_mem listed)

/-- A type text can be read once the composites it refers to are declared. -/
theorem Declares.reads {schema : Schema} (declares : file.Declares schema.types)
    {typeName : String} (knows : file.Knows typeName)
    (ready : ∀ name, file.RefersTo typeName name → name ∈ schema.types.map Field.name) :
    ∃ type, schema.typeNamed? typeName = some type := by
  cases scalar : namesScalar typeName with
  | true => exact Schema.typeNamed?_of_scalar scalar
  | false =>
    rcases knows with base | ⟨name, declared, spelled⟩
    · rw [scalar] at base
      cases base
    · rcases List.mem_append.mp declared with enum | composite
      · exact Schema.typeNamed?_of_spelled (declares.enum_mem enum) spelled
      · exact Schema.typeNamed?_of_spelled (ready name ⟨scalar, composite, spelled⟩) spelled

/-- What a type text refers to is declared if the text can be read. -/
theorem Declares.declared_of_read (wellNamed : file.WellNamed) {types : List (Field DataType)}
    (declares : file.Declares types) {known : Schema} (among : known.types ⊆ types)
    {typeName name : String} {type : DataType} (read : known.typeNamed? typeName = some type)
    (refers : file.RefersTo typeName name) : name ∈ types.map Field.name := by
  obtain ⟨other, listed, spelled⟩ := Schema.spelled_of_typeNamed read refers.1
  have member : other ∈ types.map Field.name := List.map_subset _ among listed
  rwa [wellNamed.same (mem_declaredNames refers.2.1) (declares.name_mem member)
    (equalFold_of_spells refers.2.2 spelled)]

/-! ## No circle among declared types -/

/-- A declared type depends only on types that are declared before it. -/
theorem Declares.accessible (wellNamed : file.WellNamed) {types : List (Field DataType)}
    (declares : file.Declares types) {name : String} (known : name ∈ types.map Field.name) :
    Acc (fun inner outer => file.DependsOn outer inner) name := by
  induction declares generalizing name with
  | enums _ =>
    refine ⟨name, fun inner depends => ?_⟩
    obtain ⟨declared, listed, _⟩ := depends
    rw [enumTypes_names] at known
    exact absurd known (wellNamed.composite_not_enum (List.mem_map_of_mem listed))
  | composite earlier listed fresh given ih =>
    rw [List.map_append, List.mem_append] at known
    rcases known with old | new
    · exact ih old
    · obtain rfl : name = _ := by simpa using new
      refine ⟨name, fun inner depends => ?_⟩
      obtain ⟨declared, again, field, member, refers⟩ := depends
      obtain rfl := wellNamed.declaration_unique listed again
      obtain ⟨place, at_, rfl⟩ := List.mem_iff_getElem.mp member
      obtain ⟨known, before, read⟩ := (given.get at_ (given.length_eq ▸ at_)).type
      exact ih (earlier.declared_of_read wellNamed before.subset read refers)

/-- What is accessible is on no circle. -/
theorem not_transGen_self {α : Type} {relates : α → α → Prop} {a : α}
    (accessible : Acc (fun inner outer => relates outer inner) a) : ¬Relation.TransGen relates a a := by
  induction accessible with
  | intro a _ ih =>
    intro circle
    obtain ⟨b, first, rest⟩ := Relation.TransGen.head'_iff.mp circle
    exact ih b first (Relation.TransGen.tail' rest first)

/-- Where all composites are declared there is no circle. -/
theorem Declares.not_cyclic (wellNamed : file.WellNamed) {types : List (Field DataType)}
    (declares : file.Declares types)
    (complete : ∀ name ∈ file.composites.map Prod.fst, name ∈ types.map Field.name) :
    ¬file.Cyclic := by
  rintro ⟨name, circle⟩
  obtain ⟨_, ⟨declared, listed, _⟩, _⟩ := Relation.TransGen.head'_iff.mp circle
  have known := complete name (List.mem_map_of_mem listed)
  exact not_transGen_self (declares.accessible wellNamed known) circle

/-! ## The path of composites being declared -/

/-- The composites being declared, each with one that it depends on before it, and at the head
the one asked for. -/
structure Path (file : SchemaFile) (name : String) (resolving : List String) : Prop where
  depends : (name :: resolving).IsChain fun inner outer => file.DependsOn outer inner
  listed : name :: resolving ⊆ file.composites.map Prod.fst
  distinct : resolving.Nodup

namespace Path

variable {name : String} {resolving : List String}

/-- The composite asked for is declared next, and asks for one that it depends on. -/
theorem push (path : file.Path name resolving) (free : name ∉ resolving) {dependency : String}
    (depends : file.DependsOn name dependency) : file.Path dependency (name :: resolving) := by
  refine ⟨.cons_cons depends path.depends, ?_, List.nodup_cons.mpr ⟨free, path.distinct⟩⟩
  obtain ⟨_, _, _, _, refers⟩ := depends
  exact List.cons_subset.mpr ⟨refers.2.1, path.listed⟩

/-- A composite that is met again is on a circle. -/
theorem cyclic (path : file.Path name resolving) (again : name ∈ resolving) : file.Cyclic := by
  have linked : (name :: resolving).IsChain fun inner outer =>
      Relation.TransGen file.DependsOn outer inner :=
    path.depends.imp fun _ _ depends => .single depends
  have transitive : Trans (fun inner outer => Relation.TransGen file.DependsOn outer inner)
      (fun inner outer => Relation.TransGen file.DependsOn outer inner)
      (fun inner outer => Relation.TransGen file.DependsOn outer inner) :=
    ⟨fun first second => second.trans first⟩
  exact ⟨name, linked.rel_cons again⟩

/-- A path without a circle is no longer than there are composites. -/
theorem length_lt (path : file.Path name resolving) (free : name ∉ resolving) :
    resolving.length < file.composites.length := by
  have apart : (name :: resolving).Nodup := List.nodup_cons.mpr ⟨free, path.distinct⟩
  have bounded := (List.subperm_of_subset apart path.listed).length_le
  rw [List.length_cons, List.length_map] at bounded
  exact bounded

end Path

/-! ## Faults -/

/-- While composites are being declared, no other declaration adds them. -/
theorem defineComposite_avoids {fuel : Nat} {resolving : List String} {schema after : Schema}
    {name pending : String} (member : pending ∈ resolving)
    (absent : pending ∉ schema.types.map Field.name)
    (success : file.defineComposite fuel resolving schema name = .ok after) :
    pending ∉ after.types.map Field.name := by
  induction fuel generalizing resolving schema name after with
  | zero =>
    rcases defineComposite_cases success with ⟨_, rfl⟩ | ⟨_, _, _, more, _⟩
    · exact absent
    · cases more
  | succ fuel ih =>
    rcases defineComposite_cases success with
      ⟨_, rfl⟩ | ⟨_, ready, fields, more, free, defined, added⟩
    · exact absent
    · cases more
      have still := defineFields_keeps (fun schema => pending ∉ schema.types.map Field.name)
        (fun _ _ _ kept defined => ih (List.mem_cons_of_mem _ member) kept defined) absent defined
      obtain ⟨_, rfl⟩ := Schema.addType_success rfl added
      rw [List.map_append, List.mem_append]
      rintro (old | new)
      · exact still old
      · obtain rfl : pending = name := by simpa using new
        exact free member

/-- Reading the fields of a composite fails only where one that it depends on fails. -/
theorem defineFields_fault (wellNamed : file.WellNamed) (plain : file.PlainlySpelled)
    {define : Schema → String → Except SchemaFault Schema} {owner : String}
    (defined : ∀ before name after, file.Declares before.types →
      name ∈ file.composites.map Prod.fst → define before name = .ok after →
      file.Declares after.types ∧ name ∈ after.types.map Field.name)
    {faulty : SchemaFault → Prop}
    (failing : ∀ before name fault, file.Declares before.types → file.DependsOn owner name →
      define before name = .error fault → faulty fault)
    {whole : List FieldDeclaration} (listed : (owner, whole) ∈ file.composites)
    {declared : List FieldDeclaration} (part : declared ⊆ whole) {schema : Schema}
    (declares : file.Declares schema.types) {fault : SchemaFault}
    (fails : file.defineFields define owner schema declared = .error fault) : faulty fault := by
  induction declared generalizing schema with
  | nil => cases fails
  | cons field rest ih =>
    have member : field ∈ whole := part List.mem_cons_self
    have dependency := compositeNamed?_iff wellNamed plain listed member
    rcases defineFields_cons_error fails with fails | ⟨ready, prepared, fails⟩
    · unfold prepare at fails
      split at fails
      next name found =>
        exact failing _ _ _ declares ⟨whole, listed, field, member, (dependency _).mp found⟩ fails
      · cases fails
    -- A prepared schema holds all that the field's type names, so that reading it does not fail.
    · have step : file.Declares ready.types ∧
          ∀ name, file.RefersTo field.typeName name → name ∈ ready.types.map Field.name := by
        unfold prepare at prepared
        split at prepared
        next name found =>
          obtain ⟨readyDeclares, known⟩ :=
            defined _ _ _ declares (compositeNamed_mem found) prepared
          refine ⟨readyDeclares, fun other refers => ?_⟩
          have same := found.symm.trans ((dependency other).mpr refers)
          rwa [← Option.some.inj same]
        next missing =>
          cases prepared
          refine ⟨declares, fun other refers => ?_⟩
          have found := missing.symm.trans ((dependency other).mpr refers)
          cases found
      obtain ⟨readyDeclares, known⟩ := step
      rcases fails with unread | fails
      · obtain ⟨type, read⟩ :=
          readyDeclares.reads (wellNamed.fields _ listed field member) known
        rw [unread] at read
        cases read
      · exact ih (fun _ later => part (List.mem_cons_of_mem _ later)) readyDeclares fails

/-- A composite whose declaration fails is on a path to a circle. -/
theorem defineComposite_fault (wellNamed : file.WellNamed) (plain : file.PlainlySpelled)
    {fuel : Nat} {resolving : List String} {schema : Schema} {name : String}
    (declares : file.Declares schema.types) (path : file.Path name resolving)
    (enough : file.composites.length ≤ fuel + resolving.length) {fault : SchemaFault}
    (fails : file.defineComposite fuel resolving schema name = .error fault) :
    (∃ name, fault = .recursiveComposite name) ∧ file.Cyclic := by
  -- The fuel and the composites on the path cover the file, so that fuel ends only on a circle.
  induction fuel generalizing resolving schema name fault with
  | zero =>
    obtain ⟨_, ⟨rfl, _⟩ | ⟨_, more, _⟩⟩ := defineComposite_error fails
    · refine ⟨⟨name, rfl⟩, ?_⟩
      by_cases again : name ∈ resolving
      · exact path.cyclic again
      · have bounded := path.length_lt again
        omega
    · cases more
  | succ fuel ih =>
    obtain ⟨unknown, ⟨rfl, again | none⟩ | ⟨_, more, free, fails⟩⟩ := defineComposite_error fails
    · exact ⟨⟨name, rfl⟩, path.cyclic again⟩
    · cases none
    · cases more
      rcases fails with fails | ⟨ready, fields, defined, fails⟩
      · obtain ⟨declared, found, listed⟩ := exists_lookup (path.listed List.mem_cons_self)
        rw [found, Option.getD_some] at fails
        refine defineFields_fault wellNamed plain
          (fun _ _ _ declares listed defined => (defineComposite_success declares listed defined).2)
          (fun before dependency _ declares depends fails =>
            ih declares (path.push free depends) ?_ fails)
          listed (fun _ member => member) declares fails
        rw [List.length_cons]
        omega
      -- The name was free, and no composite of the fields takes it while it is on the path.
      · have absent : name ∉ schema.types.map Field.name := by
          intro known
          rw [Schema.namedType_of_mem known] at unknown
          cases unknown
        have still := defineFields_keeps (fun schema => name ∉ schema.types.map Field.name)
          (fun _ _ _ kept defined => defineComposite_avoids List.mem_cons_self kept defined)
          absent defined
        exact absurd (Schema.addType_error rfl fails) still

/-- Declaring the composites fails only if some are in a circle. -/
theorem declareComposites_fault (wellNamed : file.WellNamed) (plain : file.PlainlySpelled)
    {schema : Schema} (declares : file.Declares schema.types) {fault : SchemaFault}
    (fails : file.declareComposites schema = .error fault) :
    (∃ name, fault = .recursiveComposite name) ∧ file.Cyclic := by
  obtain ⟨before, beforeDeclares, composite, listed, fails⟩ := foldlM_error_keeps
    (fun schema => file.Declares schema.types)
    (fun _ _ _ listed kept defined =>
      (defineComposite_success kept (List.mem_map_of_mem listed) defined).2.1)
    declares fails
  have path : file.Path composite.1 [] :=
    ⟨.singleton _, by simpa using ⟨_, listed⟩, List.nodup_nil⟩
  exact defineComposite_fault wellNamed plain beforeDeclares path (by simp) fails

/-! ## Enums and relations -/

/-- Enums under distinct names are all declared. -/
theorem declareEnums_ok (distinct : (file.enums.map Prod.fst).Nodup) :
    ∃ schema, file.declareEnums {} = .ok schema := by
  have run : ∀ (enums : List (String × List String)) (schema : Schema),
      (schema.types.map Field.name ++ enums.map Prod.fst).Nodup →
      ∃ after, enums.foldlM (fun schema enum =>
        schema.addType (.enumeration enum.1 enum.2)) schema = .ok after := by
    intro enums
    induction enums with
    | nil => exact fun schema _ => ⟨schema, rfl⟩
    | cons enum rest ih =>
      intro schema distinct
      obtain ⟨name, variants⟩ := enum
      have fresh : name ∉ schema.types.map Field.name :=
        fun taken => (List.nodup_append.mp distinct).2.2 _ taken _ (by simp) rfl
      obtain ⟨after, others⟩ := ih
        { schema with types := schema.types ++ [⟨name, .enumeration name variants⟩] }
        (by simpa using distinct)
      refine ⟨after, ?_⟩
      rw [List.foldlM_cons]
      change (schema.addType (.enumeration name variants) >>= _) = _
      rw [Schema.addType_of_fresh rfl fresh]
      exact others
  exact run file.enums {} (by simpa using distinct)

theorem resolveRelation_ok {schema : Schema} (name : String) {columns : List ColumnDeclaration}
    (read : ∀ column ∈ columns, ∃ type, schema.typeNamed? column.typeName = some type) :
    ∃ relation, resolveRelation schema name columns = .ok relation := by
  cases outcome : resolveRelation schema name columns with
  | ok relation => exact ⟨relation, rfl⟩
  | error fault =>
    rcases bind_error outcome with fails | ⟨_, _, fails⟩
    · obtain ⟨column, member, fails⟩ := mapM_error fails
      obtain ⟨type, known⟩ := read column member
      rcases bind_error fails with unread | ⟨_, _, fails⟩
      · rw [resolveType_error unread] at known
        cases known
      · cases fails
    · cases fails

/-- Relations under distinct names are all declared if the types of their columns can be read. -/
theorem declareRelations_ok {schema : Schema} (empty : schema.relations = [])
    (distinct : (file.relations.map Prod.fst).Nodup)
    (read : ∀ relation ∈ file.relations, ∀ column ∈ relation.2,
      ∃ type, schema.typeNamed? column.typeName = some type) :
    ∃ after, file.declareRelations schema = .ok after := by
  -- The types stay as they are while relations are added, so that the hypotheses on reading persist.
  have run : ∀ relations, relations ⊆ file.relations → ∀ before : Schema,
      before.types = schema.types →
      (before.relations.map Relation.name ++ relations.map Prod.fst).Nodup →
      ∃ after, relations.foldlM (fun schema declared => do
        schema.addRelation (← resolveRelation schema declared.1 declared.2)) before = .ok after := by
    intro relations
    induction relations with
    | nil => exact fun _ before _ _ => ⟨before, rfl⟩
    | cons declared rest ih =>
      intro listed before same distinct
      obtain ⟨name, columns⟩ := declared
      have columnsRead : ∀ column ∈ columns,
          ∃ type, before.typeNamed? column.typeName = some type := by
        intro column member
        rw [Schema.typeNamed_congr same]
        exact read _ (listed List.mem_cons_self) column member
      obtain ⟨relation, resolved⟩ := resolveRelation_ok name columnsRead
      obtain rfl : relation.name = name := (resolveRelation_success resolved).name
      have fresh : relation.name ∉ before.relations.map Relation.name :=
        fun taken => (List.nodup_append.mp distinct).2.2 _ taken _ (by simp) rfl
      obtain ⟨after, others⟩ := ih (fun _ member => listed (List.mem_cons_of_mem _ member))
        { before with relations := before.relations ++ [relation] } same
        (by simpa using distinct)
      refine ⟨after, ?_⟩
      rw [List.foldlM_cons]
      change ((resolveRelation before relation.name columns >>= before.addRelation) >>= _) = _
      rw [resolved]
      change (before.addRelation relation >>= _) = _
      rw [Schema.addRelation_of_fresh fresh]
      exact others
  exact run file.relations (fun _ member => member) schema rfl (by simpa [empty] using distinct)

/-! ## The whole file -/

/-- A schema that is built has all composites. -/
theorem build_complete {schema : Schema} (success : file.build = .ok schema) :
    file.Declares schema.types ∧
      ∀ name ∈ file.composites.map Prod.fst, name ∈ schema.types.map Field.name := by
  obtain ⟨enums, enumerated, composing⟩ := bind_success success
  obtain ⟨types, composed, relating⟩ := bind_success composing
  obtain ⟨_, enumsDeclared⟩ := declareEnums_success enumerated
  obtain ⟨_, declares, named⟩ := declareComposites_success enumsDeclared composed
  rw [(declareRelations_success relating).1]
  exact ⟨declares, named⟩

/-- A schema is built, or else some composite is said to contain itself and there is a circle. -/
theorem build_outcome (wellNamed : file.WellNamed) (plain : file.PlainlySpelled) :
    (∃ schema, file.build = .ok schema) ∨
      (∃ name, file.build = .error (.recursiveComposite name)) ∧ file.Cyclic := by
  have enumsDistinct : (file.enums.map Prod.fst).Nodup :=
    (List.nodup_append.mp wellNamed.distinct).1
  obtain ⟨enums, enumerated⟩ := declareEnums_ok enumsDistinct
  obtain ⟨rfl, enumsDeclared⟩ := declareEnums_success enumerated
  unfold build
  rw [enumerated]
  cases composed : file.declareComposites { types := file.enumTypes } with
  | error fault =>
    obtain ⟨⟨name, rfl⟩, cyclic⟩ :=
      declareComposites_fault wellNamed plain enumsDeclared composed
    exact Or.inr ⟨⟨name, by change (file.declareComposites _ >>= _) = _; rw [composed]; rfl⟩, cyclic⟩
  | ok types =>
    obtain ⟨extended, declares, named⟩ := declareComposites_success enumsDeclared composed
    obtain ⟨schema, related⟩ := declareRelations_ok extended.relations wellNamed.relations
      fun relation listed column member => declares.reads
        (wellNamed.columns relation listed column member)
        fun name refers => named name refers.2.1
    exact Or.inl ⟨schema, by change (file.declareComposites _ >>= _) = _; rw [composed]; exact related⟩

end SchemaFile

end AnnotatedSql
