import AnnotatedSql.Proofs.Outcome
import AnnotatedSql.Proofs.Parameter.Compared
import AnnotatedSql.Proofs.Projection.Bare
import AnnotatedSql.Proofs.Projection.Recorded
import AnnotatedSql.Proofs.Resolution.Folded

/-!
# Names and what they stand for

Every name that resolution looks up stands for what it is resolved to. A quoted name of a relation, an
entry or a column stands for itself alone; the quotes of a field are not looked at, so that it may stand
for a field of another case.
-/

namespace AnnotatedSql

open Recording (Holds)

/-- What a name may be resolved to. -/
def Referent.AnswersTo : Referent → Name → Prop
  | .field whole found, name => whole.field? name.text = some found
  | other, name => name.matches other.name = true

/-- The token is a name that may be resolved so. -/
def NameUse.Fits (s : Statement) (use : NameUse) : Prop :=
  ∃ name, s.name? use.token = some name ∧ use.referent.AnswersTo name

/-- Whether there is a field of exactly this name, if it is a field that was found. -/
def Referent.Spells : Referent → String → Prop
  | .field (.composite _ fields) _, text => ∃ field ∈ fields, field.name = text
  | _, _ => True

/-! ## Lookups -/

theorem findNamed_matches {α : Type} {nameOf : α → String} {items : List α} {name : Name} {item : α}
    (found : findNamed nameOf items name.text name.exact = some item) :
    name.matches (nameOf item) = true := by
  unfold findNamed at found
  unfold Name.matches
  cases exactly : items.find? (fun item => nameOf item == name.text) with
  | some first =>
    rw [exactly] at found
    cases found
    have same : nameOf item = name.text := by simpa using List.find?_some exactly
    split <;> simp [same]
  | none =>
    rw [exactly] at found
    dsimp only at found
    split at found
    · cases found
    next inexact =>
      rw [if_neg inexact, equalFold_comm]
      simpa using List.find?_some found

/-- Another spelling is found only if there is none as written. -/
theorem findNamed_eq_iff {α : Type} {nameOf : α → String} {items : List α} {name : String}
    {exact : Bool} {item : α} (found : findNamed nameOf items name exact = some item) :
    nameOf item = name ↔ ∃ other ∈ items, nameOf other = name := by
  unfold findNamed at found
  cases exactly : items.find? (fun item => nameOf item == name) with
  | some first =>
    rw [exactly] at found
    cases found
    have same : nameOf item = name := by simpa using List.find?_some exactly
    exact ⟨fun _ => ⟨item, List.mem_of_find?_eq_some exactly, same⟩, fun _ => same⟩
  | none =>
    rw [exactly] at found
    have missing : ∀ other ∈ items, nameOf other ≠ name := by simpa using exactly
    dsimp only at found
    split at found
    · cases found
    · exact ⟨fun same => absurd same (missing item (List.mem_of_find?_eq_some found)),
        fun ⟨other, member, same⟩ => absurd same (missing other member)⟩

/-- A quoted name is spelled like what it is resolved to, but for the case of a field whose composite has
none of exactly that name. -/
theorem Referent.AnswersTo.name {referent : Referent} {text : String}
    (answers : referent.AnswersTo ⟨text, true⟩) :
    equalFold referent.name text = true ∧ (referent.name = text ↔ referent.Spells text) := by
  have same : ∀ {name : String}, Name.matches ⟨text, true⟩ name = true →
      equalFold name text = true ∧ (name = text ↔ True) := by
    intro name matched
    obtain rfl : text = name := by simpa [Name.matches] using matched
    simp
  cases referent with
  | relation found => exact same answers
  | owner entry => exact same answers
  | column found => exact same answers
  | field whole found =>
    change whole.field? text = some found at answers
    cases whole with
    | composite declared fields =>
      rw [DataType.field_eq_findNamed] at answers
      have matched : Name.matches ⟨text, false⟩ found.name = true := findNamed_matches answers
      exact ⟨by rwa [equalFold_comm], findNamed_eq_iff answers⟩
    | _ => cases answers

/-- An entry goes by its title. -/
theorem answersTo_iff_title (entry : ScopeEntry) (qualifier : Name) :
    entry.answersTo qualifier = true ↔ qualifier.matches entry.title = true := by
  unfold ScopeEntry.answersTo ScopeEntry.title
  cases entry.aliasName <;> rfl

namespace Scope

variable {schema : Schema} {s : Statement} {scope : Scope} {name : ColumnName}

theorem referenceUses_fit {first last : Nat} {entry : ScopeEntry} {found : FoundColumn}
    (reference : s.IsReference first last name) (known : entry.column? name = some found) :
    ∀ use ∈ referenceUses name first entry found, use.Fits s := by
  unfold ScopeEntry.column? at known
  split at known
  next answers =>
    obtain ⟨column, listed, rfl⟩ := Option.map_eq_some_iff.mp known
    have matched : name.column.matches column.name = true := findNamed_matches listed
    cases reference with
    | bare named =>
      intro use member
      obtain rfl := List.mem_singleton.mp member
      exact ⟨_, named, matched⟩
    | qualified owner dot named =>
      intro use member
      rcases List.mem_cons.mp member with rfl | member
      · exact ⟨_, owner, (answersTo_iff_title entry _).mp answers⟩
      · obtain rfl := List.mem_singleton.mp member
        exact ⟨_, named, matched⟩
  · cases known

theorem recordLookup_fits {i first last : Nat} (reference : s.IsReference first last name) :
    Holds (NameUse.Fits s) (scope.recordLookup s i name first) := by
  unfold recordLookup
  induction s.contexts i with
  | nil => exact .silent _
  | cons context outer ih =>
    unfold recordLookupIn
    split
    · exact ih
    next entry found alone =>
      have listed : (entry, found) ∈ scope.owners name context := by simp [alone]
      obtain ⟨other, _, known⟩ := List.mem_filterMap.mp listed
      obtain ⟨column, known, same⟩ := Option.map_eq_some_iff.mp known
      cases same
      refine .noting fun value same => ?_
      cases same
      exact referenceUses_fit reference known
    · exact .silent _

theorem recordEnter_fits {reference : TableReference} {name : Name} {i : Nat} {nullable : Bool}
    (named : s.name? i = some name) :
    Holds (NameUse.Fits s) (recordEnter schema s scope reference name i nullable) := by
  refine .noting fun (relation, entered) succeeds use member => ?_
  obtain rfl := List.mem_singleton.mp member
  obtain ⟨found, _⟩ := enter_relation succeeds
  exact ⟨name, named, (findNamed_matches found : name.matches _ = true)⟩

theorem recordColumns_fits (relation : Relation) (items : List (Nat × Nat)) :
    Holds (NameUse.Fits s) (recordColumns s relation items) := by
  refine .noting fun columns succeeds => ?_
  have fits : List.Forall₂ (fun (item : Nat × Nat) column =>
      NameUse.Fits s ⟨item.1, .column column⟩)
      (items.filter fun item => item.2 == item.1 + 1 && s.isWord item.1) columns := by
    refine forall₂_of_mapM (fun item column listed => ?_) succeeds
    dsimp only at listed
    split at listed
    next found known =>
      cases listed
      obtain ⟨name, named, known⟩ := Option.bind_eq_some_iff.mp known
      exact ⟨name, named, (findNamed_matches known : name.matches _ = true)⟩
    · cases listed
  clear succeeds
  dsimp only
  generalize (items.filter fun item => item.2 == item.1 + 1 && s.isWord item.1) = named at fits ⊢
  induction fits with
  | nil => simp
  | cons fits _ ih =>
    intro use member
    rcases List.mem_cons.mp member with rfl | member
    · exact fits
    · exact ih use member

theorem recordStep_fits {action : ScopeStep} (listed : action ∈ s.scopeSteps) :
    Holds (NameUse.Fits s) (recordStep schema s scope action) := by
  cases action with
  | table reference nullable =>
    rw [recordStep]
    cases names : reference.relation with
    | none => exact .pure _
    | some named =>
      exact (recordEnter_fits (Statement.name_of_scopeSteps listed rfl names)).bind
        fun _ _ => .pure _
  | absent context => exact .silent _
  | insertion reference source =>
    rw [recordStep]
    cases names : reference.relation with
    | none => exact .pure _
    | some named =>
      refine (recordEnter_fits (Statement.name_of_scopeSteps listed rfl names)).bind
        fun entered _ => ?_
      dsimp only
      cases source.columns with
      | none => exact (Holds.silent _).bind fun _ _ => .pure _
      | some items => exact (recordColumns_fits _ items).bind fun _ _ => .pure _

theorem recordStatement_fits : Holds (NameUse.Fits s) (recordStatement schema s) :=
  .foldlM (fun _ _ listed => recordStep_fits listed) {}

end Scope

/-! ## Placeholders -/

namespace Statement

variable {s : Statement}

/-- A reference that is looked up consists of its tokens. -/
def Refers (s : Statement) (asked : Option ColumnUse) : Prop :=
  ∀ use, asked = some use → ∃ last, s.IsReference use.first last use.name

theorem Refers.none : Refers s none := fun _ impossible => nomatch impossible

theorem Refers.orElse {first second : Option ColumnUse} (left : s.Refers first)
    (right : s.Refers second) : s.Refers (first <|> second) := by
  intro use asked
  cases first with
  | none => exact right use asked
  | some found => exact left use asked

theorem Refers.ite {condition : Prop} [Decidable condition] {asked : Option ColumnUse}
    (refers : s.Refers asked) : s.Refers (if condition then asked else .none) := by
  split
  · exact refers
  · exact Refers.none

theorem useEndingAt_refers (last : Nat) : s.Refers (s.useEndingAt? last) := by
  intro use asked
  obtain ⟨⟨name, start⟩, found, rfl⟩ := Option.map_eq_some_iff.mp asked
  exact ⟨last, (reference_of_columnEndingAt found).1⟩

theorem useBeforeWord_refers (i : Nat) : s.Refers (s.useBeforeWord? i) := by
  intro use asked
  obtain ⟨last, _, ending⟩ := Option.bind_eq_some_iff.mp asked
  exact useEndingAt_refers last use ending

theorem contextUse_refers (lo hi : Nat) : s.Refers (s.contextUse? lo hi) := by
  have after : s.Refers (s.useAfter? hi) := by
    refine Refers.ite fun use asked => ?_
    obtain ⟨⟨name, next⟩, found, rfl⟩ := Option.map_eq_some_iff.mp asked
    obtain ⟨last, _, reference, _⟩ :=
      reference_of_columnPath (Option.filter_eq_some_iff.mp found).1
    exact ⟨last, reference⟩
  have member : s.Refers (s.listUse? lo hi) := by
    unfold listUse?
    dsimp only
    split
    · exact Refers.none
    · exact Refers.ite (useBeforeWord_refers _)
  exact (Refers.ite (useEndingAt_refers _)).orElse <| after.orElse <|
    (Refers.ite (useBeforeWord_refers _)).orElse <|
      (Refers.ite (Refers.ite (useBeforeWord_refers _))).orElse member

end Statement

theorem Typing.recordContextType_fits {s : Statement} {scope : Scope} {i : Nat}
    {asks : Recording Finding DataType} (asked : recordContextType s scope i = some asks) :
    Holds (NameUse.Fits s) asks := by
  unfold recordContextType at asked
  dsimp only at asked
  simp only [Option.orElse_eq_orElse, Option.orElse_eq_or, Option.or_eq_some_iff,
    Option.map_eq_some_iff] at asked
  rcases asked with ⟨_, _, rfl⟩ | ⟨_, ⟨use, found, rfl⟩ | ⟨_, _, _, rfl⟩⟩
  · exact .silent _
  · obtain ⟨last, reference⟩ := Statement.contextUse_refers _ _ use found
    exact (Scope.recordLookup_fits reference).through
  · exact .silent _

/-! ## Projections -/

theorem Statement.isWord_of_fieldPath {s : Statement} {hi fuel i : Nat} {names : List Nat}
    (read : s.fieldPath? hi fuel i = some names) : ∀ name ∈ names, s.isWord name = true := by
  replace read := isFieldPath_of_read read
  induction read with
  | ended => simp
  | field _ _ word _ ih =>
    intro name member
    rcases List.mem_cons.mp member with rfl | member
    · exact word
    · exact ih name member

namespace Surroundings

variable {env : Surroundings}

theorem recordColumn_fits {i next : Nat} {name : ColumnName}
    (read : env.statement.columnPath? i = some (name, next)) :
    Holds (NameUse.Fits env.statement) (env.recordColumn i name next) := by
  obtain ⟨last, _, reference, _⟩ := Statement.reference_of_columnPath read
  exact (Scope.recordLookup_fits reference).through

theorem recordToken_fits (i : Nat) : Holds (NameUse.Fits env.statement) (env.recordToken i) := by
  unfold recordToken
  dsimp only
  split
  · split
    next read => exact recordColumn_fits read
    · exact .silent _
  · exact .silent _

theorem recordField_fits (whole : Expression) {i : Nat} (word : env.statement.isWord i = true) :
    Holds (NameUse.Fits env.statement) (env.recordField whole i) := by
  obtain ⟨name, named⟩ := Statement.name_of_isWord word
  refine .noting fun _ _ use member => ?_
  obtain ⟨field, found, rfl⟩ := Option.map_eq_some_iff.mp (Option.mem_toList.mp member)
  rw [named] at found
  exact ⟨name, named, found⟩

theorem recordExpressionWithin_fits (fuel lo hi : Nat) :
    Holds (NameUse.Fits env.statement) (env.recordExpressionWithin fuel lo hi) := by
  induction fuel generalizing lo hi with
  | zero => exact .silent _
  | succ fuel ih =>
    unfold recordExpressionWithin
    dsimp only
    split
    · exact .silent _
    split
    · exact (ih _ _).through
    split
    · exact recordToken_fits lo
    split
    next read => exact recordColumn_fits (Option.filter_eq_some_iff.mp read).1
    split
    · exact .silent _
    split
    · exact .silent _
    split
    · exact .silent _
    next names read =>
      exact (ih _ _).bind fun whole _ => .foldlM (fun whole name member =>
        recordField_fits whole (Statement.isWord_of_fieldPath read name member)) whole

theorem recordSingle_fits (lo hi : Nat) :
    Holds (NameUse.Fits env.statement) (env.recordSingle lo hi) := by
  have aliased : ∀ hi last, Holds (NameUse.Fits env.statement) (env.recordAliased lo hi last) :=
    fun hi last => Holds.bind (recordExpressionWithin_fits _ _ _) fun _ _ => .pure _
  unfold recordSingle
  dsimp only
  split
  · exact aliased _ _
  split
  · split
    · exact aliased _ _
    · exact .silent _
  · exact recordExpressionWithin_fits _ _ _

theorem recordItem_fits (lo hi : Nat) :
    Holds (NameUse.Fits env.statement) (env.recordItem lo hi) := by
  unfold recordItem
  dsimp only
  split
  · exact .silent _
  split
  next qualifier qualified =>
    refine .noting fun _ _ use member => ?_
    obtain ⟨entry, found, rfl⟩ := Option.map_eq_some_iff.mp (Option.mem_toList.mp member)
    have named := (Statement.starQualifier_parts qualified).2.2.2
    have answers : entry.answersTo qualifier = true := by simpa using List.find?_some found
    exact ⟨qualifier, named, (answersTo_iff_title entry _).mp answers⟩
  · exact (recordSingle_fits lo hi).through

/-- The names that the resolution of a statement looks up: those of its scope, those that its
placeholders without a cast take their types from, and those of its projection. -/
def nameUses (env : Surroundings) : List NameUse :=
  (Scope.recordStatement env.schema env.statement).uses ++
    ((Typing.uncast env.statement env.parameters).flatMap fun (i, _) =>
      (Typing.recordContextType env.statement env.scope i).elim [] Recording.uses) ++
    (env.statement.projectionItems?.getD []).flatMap fun (lo, hi) => (env.recordItem lo hi).uses

/-- Every name stands for what it is resolved to. -/
theorem nameUses_fit : ∀ use ∈ env.nameUses, use.Fits env.statement := by
  intro use member
  rcases List.mem_append.mp member with member | item
  · rcases List.mem_append.mp member with inScope | asked
    · exact Scope.recordStatement_fits use inScope
    · obtain ⟨⟨i, _⟩, _, used⟩ := List.mem_flatMap.mp asked
      dsimp only at used
      cases asked : Typing.recordContextType env.statement env.scope i with
      | none =>
        rw [asked] at used
        cases used
      | some asks =>
        rw [asked] at used
        exact Typing.recordContextType_fits asked use used
  · obtain ⟨⟨lo, hi⟩, _, used⟩ := List.mem_flatMap.mp item
    exact recordItem_fits lo hi use used

/-- The steps whose names are listed are the steps of a run that typed the given parameters: without their
records they build the scope of the statement, ask for the types of its placeholders, and give the columns
of its items. -/
structure Recounts (env : Surroundings) (bound : List Parameter) : Prop where
  scope : (Scope.recordStatement env.schema env.statement).erase = .ok env.scope
  typed : (typeParameters env.schema env.statement env.scope bound).1 = env.parameters
  asked : Typing.uses env.statement env.scope bound =
    (Typing.uncast env.statement env.parameters).filterMap fun (i, key) =>
      (Typing.recordContextType env.statement env.scope i).map fun asks => ⟨i, key, asks.erase⟩
  items : ∀ lo hi, (env.recordItem lo hi).erase = env.item lo hi

theorem recounts_of_typed {bound : List Parameter}
    (built : Scope.ofStatement env.schema env.statement = .ok env.scope)
    (typed : (typeParameters env.schema env.statement env.scope bound).1 = env.parameters) :
    env.Recounts bound where
  scope := Scope.erase_recordStatement.trans built
  typed := typed
  asked := by rw [← typed, Typing.uncast_typed, Typing.uses_eq_recorded]
  items := erase_recordItem

end Surroundings

end AnnotatedSql
