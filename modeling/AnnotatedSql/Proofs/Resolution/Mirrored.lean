import AnnotatedSql.Proofs.Parameter.Compared
import AnnotatedSql.Proofs.Parameter.Renaming
import AnnotatedSql.Proofs.Resolution.Asked
import AnnotatedSql.Proofs.Resolution.Typed
import AnnotatedSql.Proofs.Statement.Mirrored
import Mathlib.Data.List.Basic

/-!
# What names are spelled like does not matter to scopes and types

Where no lookup notices that names are spelled anew, statements that read alike have the same relations
in scope, find the same columns there, and their placeholders are asked for the same types, whatever the
placeholders are named. What is wrong with them is of the same kinds.
-/

namespace AnnotatedSql

/-- Lookups in the schema do not notice how names are spelled anew. Only `plain` names are held
against aliases. -/
structure Unnoticed (respell : Name → Name) (plain : Name → Prop) (schema : Schema) : Prop where
  relation : ∀ name, schema.relation? (respell name).text (respell name).exact =
    schema.relation? name.text name.exact
  column : ∀ relation ∈ schema.relations, ∀ name,
    relation.column? (respell name).text (respell name).exact =
      relation.column? name.text name.exact
  matchesAlias : ∀ name other, plain name →
    (respell name).matches (respell other).text = name.matches other.text
  matchesRelation : ∀ name, plain name → ∀ relation ∈ schema.relations,
    (respell name).matches relation.name = name.matches relation.name
  field : ∀ type, schema.Offers type → ∀ name,
    type.field? (respell name).text = type.field? name.text

/-- All names in the statement have a property. -/
def Statement.AllNames (plain : Name → Prop) (s : Statement) : Prop :=
  ∀ i name, s.name? i = some name → plain name

/-- The entry with its alias respelled. -/
def ScopeEntry.respelled (respell : Name → Name) (entry : ScopeEntry) : ScopeEntry :=
  { entry with aliasName := entry.aliasName.map respell }

/-- The scope with its aliases respelled. -/
def Scope.respelled (respell : Name → Name) (scope : Scope) : Scope :=
  { scope with entries := scope.entries.map (ScopeEntry.respelled respell) }

/-! ## Nothing respelled -/

theorem unnoticed_id (schema : Schema) : Unnoticed id (fun _ => True) schema := by
  constructor <;> intros <;> rfl

theorem Statement.allNames_true (s : Statement) : s.AllNames fun _ => True :=
  fun _ _ _ => trivial

@[simp] theorem Scope.respelled_id (scope : Scope) : scope.respelled id = scope := by
  have entry : ScopeEntry.respelled id = id := by
    funext entry
    simp [ScopeEntry.respelled]
  simp [respelled, entry]

/-! ## Scopes -/

section Scopes

variable {respell : Name → Name} {plain : Name → Prop} {schema : Schema} {s t : Statement}
  (unnoticed : Unnoticed respell plain schema) (mirrors : s.Mirrors respell t)

include unnoticed

theorem ScopeEntry.answersTo_respelled {entry : ScopeEntry} (known : entry.relation ∈ schema.relations)
    {name : Name} (isPlain : plain name) :
    (entry.respelled respell).answersTo (respell name) = entry.answersTo name := by
  unfold answersTo respelled
  cases entry.aliasName with
  | none => exact unnoticed.matchesRelation name isPlain _ known
  | some other => exact unnoticed.matchesAlias name other isPlain

theorem ScopeEntry.column_respelled {entry : ScopeEntry} (known : entry.relation ∈ schema.relations)
    {name : ColumnName} (isPlain : ∀ qualifier ∈ name.qualifier, plain qualifier) :
    (entry.respelled respell).column? (name.respelled respell) = entry.column? name := by
  have answers : (name.respelled respell).qualifier.all (entry.respelled respell).answersTo =
      name.qualifier.all entry.answersTo := by
    unfold ColumnName.respelled
    cases qualified : name.qualifier with
    | none => rfl
    | some qualifier => exact answersTo_respelled unnoticed known (isPlain qualifier qualified)
  have column : (entry.respelled respell).relation.column? (name.respelled respell).column.text
        (name.respelled respell).column.exact =
      entry.relation.column? name.column.text name.column.exact :=
    unnoticed.column entry.relation known name.column
  unfold column?
  rw [answers, column]
  rfl

namespace Scope

theorem candidates_respelled {scope : Scope} (within : scope.Within schema) {name : ColumnName}
    (isPlain : ∀ qualifier ∈ name.qualifier, plain qualifier) (context : Option Nat) :
    (scope.respelled respell).candidates (name.respelled respell) context =
      scope.candidates name context := by
  unfold candidates respelled
  dsimp only
  rw [List.filter_map, List.filterMap_map]
  refine List.filterMap_congr fun entry member => ?_
  exact ScopeEntry.column_respelled unnoticed (within.entries entry (List.mem_filter.mp member).1) isPlain

theorem lookupIn_respelled {scope : Scope} (within : scope.Within schema) {name : ColumnName}
    (isPlain : ∀ qualifier ∈ name.qualifier, plain qualifier) (contexts : List (Option Nat)) :
    (scope.respelled respell).lookupIn (name.respelled respell) contexts =
      scope.lookupIn name contexts := by
  induction contexts with
  | nil => rfl
  | cons context outer ih =>
    unfold lookupIn
    rw [candidates_respelled unnoticed within isPlain, ih]

include mirrors

theorem lookup_mirrored {scope : Scope} (within : scope.Within schema) (i : Nat) {name : ColumnName}
    (isPlain : ∀ qualifier ∈ name.qualifier, plain qualifier) :
    (scope.respelled respell).lookup t i (name.respelled respell) = scope.lookup s i name := by
  unfold lookup
  rw [mirrors.contexts, lookupIn_respelled unnoticed within isPlain]

theorem enter_mirrored (scope : Scope) (reference : TableReference) (name : Name) (i : Nat)
    (nullable : Bool) :
    mapBoth Finding.kind id
        ((scope.respelled respell).enter schema t (reference.respelled respell) (respell name) i nullable) =
      mapBoth Finding.kind (Prod.map id (Scope.respelled respell))
        (scope.enter schema s reference name i nullable) := by
  unfold enter
  rw [unnoticed.relation]
  cases schema.relation? name.text name.exact with
  | none => rfl
  | some relation =>
    dsimp only [TableReference.respelled]
    rw [mirrors.queryContext]
    simp [mapBoth, Scope.respelled, ScopeEntry.respelled]

theorem listedColumns_mirrored {relation : Relation} (known : relation ∈ schema.relations)
    (items : List (Nat × Nat)) :
    mapBoth Finding.kind id (listedColumns t relation items) =
      mapBoth Finding.kind id (listedColumns s relation items) := by
  unfold listedColumns
  simp only [mirrors.isWord]
  refine mapBoth_mapM_alike fun (lo, hi) _ => ?_
  dsimp only
  rw [mirrors.name]
  cases s.name? lo with
  | none => rfl
  | some name =>
    have column := unnoticed.column relation known name
    dsimp only [Option.map_some, Option.bind_some]
    rw [column]
    cases relation.column? name.text name.exact <;> rfl

theorem step_mirrored {scope : Scope} (step : ScopeStep) :
    mapBoth Finding.kind id
        (Scope.step schema t (scope.respelled respell) (step.respelled respell)) =
      mapBoth Finding.kind (Scope.respelled respell) (Scope.step schema s scope step) := by
  cases step with
  | table reference nullable =>
    unfold Scope.step
    cases named : reference.relation with
    | none =>
      simp only [ScopeStep.respelled, TableReference.respelled, named]
      rfl
    | some found =>
      simp only [ScopeStep.respelled]
      have entered := enter_mirrored unnoticed mirrors scope reference found.1 found.2 nullable
      simpa [TableReference.respelled, named] using
        mapBoth_map_alike entered fun pair => Prod.map_snd id (Scope.respelled respell) pair
  | absent context =>
    unfold Scope.step
    simp only [ScopeStep.respelled, mapBoth, Scope.respelled, List.map_map]
    congr 3
    refine List.map_congr_left fun entry _ => ?_
    by_cases same : entry.context = context <;> simp [ScopeEntry.respelled, same]
  | insertion reference source =>
    unfold Scope.step
    cases named : reference.relation with
    | none =>
      simp only [ScopeStep.respelled, TableReference.respelled, named]
      rfl
    | some found =>
      have entered := enter_mirrored unnoticed mirrors scope reference found.1 found.2 false
      simp only [ScopeStep.respelled]
      have relation : (reference.respelled respell).relation = some (respell found.1, found.2) := by
        simp [TableReference.respelled, named]
      rw [relation, named]
      dsimp only
      refine mapBoth_bind_alike entered fun entry enters => ?_
      obtain ⟨relation, after⟩ := entry
      have known : relation ∈ schema.relations := findNamed_mem (enter_relation enters).1
      dsimp only [Prod.map_apply, id_eq]
      cases source.columns with
      | none => rfl
      | some items =>
        refine mapBoth_bind_alike (listedColumns_mirrored unnoticed mirrors known items) ?_
        exact fun _ _ => rfl

theorem ofStatement_mirrored :
    mapBoth Finding.kind id (ofStatement schema t) =
      mapBoth Finding.kind (Scope.respelled respell) (ofStatement schema s) := by
  unfold ofStatement
  rw [mirrors.scopeSteps]
  change mapBoth Finding.kind id (List.foldlM _ (Scope.respelled respell {}) _) = _
  exact mapBoth_foldlM_alike (fun _ => True) (fun _ _ _ _ _ => trivial)
    (fun scope step _ _ => step_mirrored unnoticed mirrors step) trivial

theorem ofStatement_ok {scope : Scope} (built : ofStatement schema s = .ok scope) :
    ofStatement schema t = .ok (scope.respelled respell) := by
  have mirrored := ofStatement_mirrored unnoticed mirrors
  rw [built] at mirrored
  cases found : ofStatement schema t with
  | ok other =>
    rw [found] at mirrored
    exact congrArg Except.ok (Except.ok.inj mirrored)
  | error _ =>
    rw [found] at mirrored
    cases mirrored

theorem ofStatement_error {finding : Finding} (fails : ofStatement schema s = .error finding) :
    ∃ other, ofStatement schema t = .error other ∧ other.kind = finding.kind := by
  have mirrored := ofStatement_mirrored unnoticed mirrors
  rw [fails] at mirrored
  cases found : ofStatement schema t with
  | ok _ =>
    rw [found] at mirrored
    cases mirrored
  | error other =>
    rw [found] at mirrored
    exact ⟨other, rfl, Except.error.inj mirrored⟩

end Scope

end Scopes

/-! ## What surroundings ask for -/

namespace Statement.AllNames

variable {plain : Name → Prop} {s : Statement} (names : s.AllNames plain)

include names

theorem reference {first last : Nat} {name : ColumnName} (found : s.IsReference first last name) :
    ∀ part ∈ name.qualifier, plain part := by
  intro part qualified
  cases found with
  | bare _ => cases qualified
  | qualified owner _ _ =>
    cases qualified
    exact names _ _ owner

theorem columnPath {first next : Nat} {name : ColumnName}
    (read : s.columnPath? first = some (name, next)) : ∀ part ∈ name.qualifier, plain part := by
  obtain ⟨_, _, found, _⟩ := Statement.reference_of_columnPath read
  exact names.reference found

theorem columnEndingAt {last start : Nat} {name : ColumnName}
    (read : s.columnEndingAt? last = some (name, start)) :
    ∀ part ∈ name.qualifier, plain part :=
  names.reference (Statement.reference_of_columnEndingAt read).1

end Statement.AllNames

namespace Typing

variable {respell : Name → Name} {plain : Name → Prop} {schema : Schema} {s t : Statement}
  (unnoticed : Unnoticed respell plain schema) (mirrors : s.Mirrors respell t)
  (names : s.AllNames plain) {scope : Scope} (within : scope.Within schema)

include unnoticed mirrors within

theorem columnType_mirrored (i : Nat) {name : ColumnName} (lo hi : Nat)
    (isPlain : ∀ part ∈ name.qualifier, plain part) :
    mapBoth Finding.kind id
        (columnType t (scope.respelled respell) i (name.respelled respell) lo hi) =
      mapBoth Finding.kind id (columnType s scope i name lo hi) := by
  unfold columnType
  rw [Scope.lookup_mirrored unnoticed mirrors within i isPlain]
  cases scope.lookup s i name with
  | ok found => rfl
  | error fault => cases fault <;> rfl

include names

theorem typeEndingAt_mirrored (last : Nat) :
    kinds (typeEndingAt t (scope.respelled respell) last) = kinds (typeEndingAt s scope last) := by
  unfold typeEndingAt kinds
  rw [mirrors.columnEndingAt]
  cases read : s.columnEndingAt? last with
  | none => rfl
  | some found =>
    exact congrArg some (columnType_mirrored unnoticed mirrors within last found.2 (last + 1)
      (names.columnEndingAt read))

theorem rangeColumn_mirrored (i : Nat) :
    kinds (rangeColumn t (scope.respelled respell) i) = kinds (rangeColumn s scope i) := by
  unfold rangeColumn
  rw [mirrors.beforeNot]
  cases s.beforeNot? i with
  | none => rfl
  | some last => exact typeEndingAt_mirrored unnoticed mirrors names within last

theorem comparedAfter_mirrored (lo : Nat) :
    kinds (comparedAfter t (scope.respelled respell) lo) = kinds (comparedAfter s scope lo) := by
  unfold comparedAfter
  rw [mirrors.isComparison, mirrors.isKeyword]
  exact kinds_ite (typeEndingAt_mirrored unnoticed mirrors names within _)

theorem comparedBefore_mirrored (hi : Nat) :
    kinds (comparedBefore t (scope.respelled respell) hi) = kinds (comparedBefore s scope hi) := by
  unfold comparedBefore
  dsimp only
  rw [mirrors.isKeyword, mirrors.isComparison, mirrors.columnAt]
  refine kinds_ite ?_
  generalize (if s.isKeyword (hi + 1) "not" then hi + 2 else hi + 1) = op
  cases read : s.columnAt? (op + 1) with
  | none => rfl
  | some found =>
    have path := (Option.filter_eq_some_iff.mp read).1
    exact congrArg some (columnType_mirrored unnoticed mirrors within (op + 1) (op + 1) found.2
      (names.columnPath path))

theorem lowerBound_mirrored (lo : Nat) :
    kinds (lowerBound t (scope.respelled respell) lo) = kinds (lowerBound s scope lo) := by
  unfold lowerBound
  rw [mirrors.isKeyword]
  exact kinds_ite (rangeColumn_mirrored unnoticed mirrors names within _)

theorem upperBound_mirrored (lo : Nat) :
    kinds (upperBound t (scope.respelled respell) lo) = kinds (upperBound s scope lo) := by
  unfold upperBound
  dsimp only
  rw [mirrors.isKeyword, mirrors.clauseKeywordBefore, mirrors.isKeyword]
  exact kinds_ite (kinds_ite (rangeColumn_mirrored unnoticed mirrors names within _))

theorem listMember_mirrored (lo hi : Nat) :
    kinds (listMember t (scope.respelled respell) lo hi) = kinds (listMember s scope lo hi) := by
  unfold listMember
  dsimp only
  rw [mirrors.enclosing, mirrors.is _ _ (by simp) (by simp), mirrors.is _ _ (by simp) (by simp),
    mirrors.is _ _ (by simp) (by simp), mirrors.is _ _ (by simp) (by simp)]
  cases s.enclosing lo with
  | none => rfl
  | some opening =>
    dsimp only
    rw [mirrors.isKeyword, mirrors.beforeNot]
    refine kinds_ite ?_
    cases s.beforeNot? (opening - 1) with
    | none => rfl
    | some last => exact typeEndingAt_mirrored unnoticed mirrors names within last

omit unnoticed names within in
theorem insertedValue_mirrored (lo hi : Nat) :
    insertedValue t (scope.respelled respell) lo hi = insertedValue s scope lo hi := by
  have index : valueIndex? t lo hi = valueIndex? s lo hi := by
    funext row
    simp [valueIndex?, mirrors.splitCommas]
  unfold insertedValue
  rw [index]
  rfl

/-- The surroundings of a placeholder ask for the same type, or fail in the same way. -/
theorem contextType_mirrored (i : Nat) :
    kinds (contextType t (scope.respelled respell) i) = kinds (contextType s scope i) := by
  unfold contextType
  rw [mirrors.operand]
  have rows : ∀ lo, kinds (rowCount t lo) = kinds (rowCount s lo) := by
    intro lo
    unfold rowCount
    rw [mirrors.isOneOf]
  refine kinds_orElse (rows _) (kinds_orElse ?_ (kinds_orElse ?_ (kinds_orElse ?_
    (kinds_orElse ?_ (kinds_orElse ?_ ?_)))))
  · exact comparedAfter_mirrored unnoticed mirrors names within _
  · exact comparedBefore_mirrored unnoticed mirrors names within _
  · exact lowerBound_mirrored unnoticed mirrors names within _
  · exact upperBound_mirrored unnoticed mirrors names within _
  · exact listMember_mirrored unnoticed mirrors names within _ _
  · rw [insertedValue_mirrored mirrors]

end Typing

/-! ## Other placeholders -/

section Renamed

variable {respell : Name → Name} {rename : ParamKey → ParamKey} {change : Parameter → Parameter}
  {s t : Statement} {parameters : List Parameter} {plain : Name → Prop} {schema : Schema}
  {scope : Scope} (unnoticed : Unnoticed respell plain schema) (names : s.AllNames plain)
  (within : scope.Within schema) (renames : s.Renames respell rename t)

include unnoticed names within renames

theorem Typing.asksAlike_renamed :
    Typing.AsksAlike id rename s scope t (scope.respelled respell) where
  placeholders := renames.placeholders
  injective := renames.injective
  context {i _} _ := contextType_mirrored unnoticed renames.mirrors names within i

/-- The types of the parameters are the same, and so are the kinds of what is wrong with them. -/
theorem typeParameters_renamed (changes : ChangesKeys rename change s parameters) :
    (typeParameters schema t (scope.respelled respell) (parameters.map change)).1 =
        (typeParameters schema s scope parameters).1.map change ∧
      (typeParameters schema t (scope.respelled respell) (parameters.map change)).2.map Finding.kind =
        (typeParameters schema s scope parameters).2.map Finding.kind :=
  typeParameters_alike (Typing.asksAlike_renamed unnoticed names within renames) changes

end Renamed

end AnnotatedSql
