import AnnotatedSql.Parameter.Typing
import Mathlib.Data.List.Basic

/-!
# Lookups with a record

The steps that look up names, with a record of what each name was resolved to: those that build the
scope of a statement, and those that take the type of a placeholder from a column beside it. Without the
record they are the steps themselves. A step that fails leaves no record.
-/

namespace AnnotatedSql

/-! ## Records -/

/-- What a name is resolved to. -/
inductive Referent
  | relation (found : Relation)
  /-- The entry that a qualifier stands for. -/
  | owner (entry : ScopeEntry)
  | column (found : Column)
  /-- A field of a composite. -/
  | field (whole : DataType) (found : Field DataType)
  deriving DecidableEq, Repr

/-- The name an entry goes by: its alias if it has one. -/
def ScopeEntry.title (entry : ScopeEntry) : String :=
  match entry.aliasName with
  | some name => name.text
  | none => entry.relation.name

/-- The name of what was found. -/
def Referent.name : Referent → String
  | relation found => found.name
  | owner entry => entry.title
  | column found => found.name
  | field _ found => found.name

/-- A token whose name was resolved. -/
structure NameUse where
  token : Nat
  referent : Referent
  deriving DecidableEq, Repr

/-- A value, and the names that were resolved on the way to it. -/
structure Recorded (α : Type) where
  value : α
  uses : List NameUse
  deriving DecidableEq, Repr

/-- A step that may fail and records the names that it resolves. -/
def Recording (ε α : Type) : Type := Except ε (Recorded α)

namespace Recording

variable {ε ε' α β σ : Type}

instance [DecidableEq ε] [DecidableEq α] : DecidableEq (Recording ε α) :=
  inferInstanceAs (DecidableEq (Except ε (Recorded α)))

/-- A step that gives a value and has resolved some names. -/
def done (value : α) (uses : List NameUse) : Recording ε α := Except.ok ⟨value, uses⟩

instance : Monad (Recording ε) where
  pure value := done value []
  bind first next :=
    match first with
    | .error fault => Except.error fault
    | .ok before =>
      match next before.value with
      | .error fault => Except.error fault
      | .ok after => Except.ok ⟨after.value, before.uses ++ after.uses⟩

/-- A step that resolves the given names. -/
def noting (outcome : Except ε α) (names : α → List NameUse) : Recording ε α :=
  outcome.map fun value => ⟨value, names value⟩

/-- A step that resolves no name. -/
def silent (outcome : Except ε α) : Recording ε α := noting outcome fun _ => []

/-- The step without its record. -/
def erase (step : Recording ε α) : Except ε α := Except.map Recorded.value step

/-- The names that a step resolves; none if it fails. -/
def uses (step : Recording ε α) : List NameUse :=
  match step with
  | .error _ => []
  | .ok recorded => recorded.uses

/-- A step whose outcome is read in another way. -/
def through (read : Except ε α → Except ε' β) (step : Recording ε α) : Recording ε' β :=
  noting (read step.erase) fun _ => step.uses

@[simp] theorem erase_pure (value : α) : (pure value : Recording ε α).erase = pure value := rfl

@[simp] theorem erase_noting (outcome : Except ε α) (names : α → List NameUse) :
    (noting outcome names).erase = outcome := by
  cases outcome <;> rfl

@[simp] theorem erase_silent (outcome : Except ε α) : (silent outcome).erase = outcome :=
  erase_noting outcome _

@[simp] theorem erase_through (read : Except ε α → Except ε' β) (step : Recording ε α) :
    (step.through read).erase = read step.erase :=
  erase_noting _ _

@[simp] theorem erase_bind (first : Recording ε α) (next : α → Recording ε β) :
    (first >>= next).erase = first.erase >>= fun value => (next value).erase := by
  cases first with
  | error fault => rfl
  | ok before =>
    change erase (match next before.value with
      | .error fault => Except.error fault
      | .ok after => Except.ok ⟨after.value, before.uses ++ after.uses⟩) = (next before.value).erase
    cases next before.value <;> rfl

@[simp] theorem erase_done (value : α) (uses : List NameUse) :
    (done value uses : Recording ε α).erase = .ok value := rfl

/-- One step after another has resolved the names of both. -/
theorem bind_done {next : α → Recording ε β} {value : α} {result : β} {uses more : List NameUse}
    (follows : next value = done result more) :
    (done value uses >>= next) = done result (uses ++ more) := by
  change (match next value with
    | .error fault => Except.error fault
    | .ok after => Except.ok ⟨after.value, uses ++ after.uses⟩) = done result (uses ++ more)
  rw [follows]
  rfl

/-- A run without its record is the run of the steps without theirs. -/
theorem erase_foldlM {recorded : σ → α → Recording ε σ} {step : σ → α → Except ε σ}
    (same : ∀ state item, (recorded state item).erase = step state item) (items : List α)
    (start : σ) : (items.foldlM recorded start).erase = items.foldlM step start := by
  induction items generalizing start with
  | nil => rfl
  | cons item items ih =>
    rw [List.foldlM_cons, List.foldlM_cons, erase_bind, same]
    exact congrArg _ (funext ih)

/-- All names that a step resolves are as told. -/
def Holds (P : NameUse → Prop) (step : Recording ε α) : Prop := ∀ use ∈ step.uses, P use

namespace Holds

variable {P : NameUse → Prop}

theorem pure (value : α) : Holds P (Pure.pure value : Recording ε α) := by
  rintro use ⟨⟩

theorem noting {outcome : Except ε α} {names : α → List NameUse}
    (each : ∀ value, outcome = .ok value → ∀ use ∈ names value, P use) :
    Holds P (noting outcome names) := by
  cases outcome with
  | error fault => rintro use ⟨⟩
  | ok value => exact each value rfl

theorem silent (outcome : Except ε α) : Holds P (silent outcome) :=
  noting fun _ _ => by simp

theorem through {read : Except ε α → Except ε' β} {step : Recording ε α} (holds : Holds P step) :
    Holds P (step.through read) :=
  noting fun _ _ => holds

theorem bind {first : Recording ε α} {next : α → Recording ε β} (before : Holds P first)
    (after : ∀ value, first.erase = .ok value → Holds P (next value)) :
    Holds P (first >>= next) := by
  cases first with
  | error fault => rintro use ⟨⟩
  | ok recorded =>
    have further := after recorded.value rfl
    change ∀ use ∈ uses (match next recorded.value with
      | .error fault => Except.error fault
      | .ok after => Except.ok ⟨after.value, recorded.uses ++ after.uses⟩), P use
    cases result : next recorded.value with
    | error fault => rintro use ⟨⟩
    | ok more =>
      rw [result] at further
      intro use member
      exact (List.mem_append.mp member).elim (before use) (further use)

/-- What each step of a run resolves is as told if it is for the items of the run. -/
theorem foldlM {step : σ → α → Recording ε σ} {items : List α}
    (each : ∀ state, ∀ item ∈ items, Holds P (step state item)) (start : σ) :
    Holds P (items.foldlM step start) := by
  induction items generalizing start with
  | nil => exact pure start
  | cons item items ih =>
    rw [List.foldlM_cons]
    exact (each start item (by simp)).bind fun state _ =>
      ih (fun state other member => each state other (by simp [member])) state

end Holds

end Recording

/-! ## Scopes -/

namespace Scope

/-- The columns of one query that a name stands for, each with its entry. -/
def owners (scope : Scope) (name : ColumnName) (context : Option Nat) :
    List (ScopeEntry × FoundColumn) :=
  (scope.entries.filter (·.context == context)).filterMap fun entry =>
    (entry.column? name).map (entry, ·)

/-- The names of a reference that starts at token `first`, of a column that `entry` knows. -/
def referenceUses (name : ColumnName) (first : Nat) (entry : ScopeEntry) (found : FoundColumn) :
    List NameUse :=
  match name.qualifier with
  | none => [⟨first, .column found.column⟩]
  | some _ => [⟨first, .owner entry⟩, ⟨first + 2, .column found.column⟩]

/-- Looks for a column in one query after another. -/
def recordLookupIn (scope : Scope) (name : ColumnName) (first : Nat) :
    List (Option Nat) → Recording LookupFault FoundColumn
  | [] => .silent (.error .unknown)
  | context :: outer =>
    match scope.owners name context with
    | [] => scope.recordLookupIn name first outer
    | [(entry, found)] => .noting (.ok found) fun found => referenceUses name first entry found
    | _ => .silent (.error .ambiguous)

/-- Looks for the column that a reference at token `i` stands for. -/
def recordLookup (scope : Scope) (s : Statement) (i : Nat) (name : ColumnName) (first : Nat) :
    Recording LookupFault FoundColumn :=
  scope.recordLookupIn name first (s.contexts i)

/-- Brings the relation of a reference into scope. -/
def recordEnter (schema : Schema) (s : Statement) (scope : Scope) (reference : TableReference)
    (name : Name) (i : Nat) (nullable : Bool) : Recording Finding (Relation × Scope) :=
  .noting (scope.enter schema s reference name i nullable) fun (relation, _) =>
    [⟨i, .relation relation⟩]

/-- Looks up the columns of a column list. -/
def recordColumns (s : Statement) (relation : Relation) (items : List (Nat × Nat)) :
    Recording Finding (List Column) :=
  .noting (listedColumns s relation items) fun columns =>
    List.zipWith (fun item column => ⟨item.1, .column column⟩)
      (items.filter fun (lo, hi) => hi == lo + 1 && s.isWord lo) columns

/-- The scope after one step. -/
def recordStep (schema : Schema) (s : Statement) (scope : Scope) : ScopeStep → Recording Finding Scope
  | .table reference nullable =>
    match reference.relation with
    | none => pure scope
    | some (name, i) => do
      let (_, scope) ← recordEnter schema s scope reference name i nullable
      return scope
  | .absent context => .silent (scope.step schema s (.absent context))
  | .insertion reference source =>
    match reference.relation with
    | none => pure scope
    | some (name, i) => do
      let (relation, scope) ← recordEnter schema s scope reference name i false
      let columns ← match source.columns with
        | some items => recordColumns s relation items
        | none => .silent (.ok relation.columns)
      return { scope with insert := some ⟨columns, source.rows⟩ }

/-- The scope of a statement. -/
def recordStatement (schema : Schema) (s : Statement) : Recording Finding Scope :=
  s.scopeSteps.foldlM (recordStep schema s) {}

variable {schema : Schema} {s : Statement} {scope : Scope}

theorem candidates_eq (name : ColumnName) (context : Option Nat) :
    scope.candidates name context = (scope.owners name context).map Prod.snd := by
  rw [candidates, owners, List.map_filterMap]
  refine List.filterMap_congr fun entry _ => ?_
  cases entry.column? name <;> rfl

theorem erase_recordLookupIn (name : ColumnName) (first : Nat) (contexts : List (Option Nat)) :
    (scope.recordLookupIn name first contexts).erase = scope.lookupIn name contexts := by
  induction contexts with
  | nil => rfl
  | cons context outer ih =>
    rw [recordLookupIn, lookupIn, candidates_eq]
    match scope.owners name context with
    | [] => exact ih
    | [(_, _)] => rfl
    | _ :: _ :: _ => rfl

theorem erase_recordLookup (i : Nat) (name : ColumnName) (first : Nat) :
    (scope.recordLookup s i name first).erase = scope.lookup s i name :=
  erase_recordLookupIn name first (s.contexts i)

theorem erase_recordStep (action : ScopeStep) :
    (scope.recordStep schema s action).erase = scope.step schema s action := by
  cases action with
  | table reference nullable =>
    rw [recordStep, step]
    cases reference.relation with
    | none => rfl
    | some named =>
      simp only [Recording.erase_bind, recordEnter, Recording.erase_noting, Recording.erase_pure]
      cases scope.enter schema s reference named.1 named.2 nullable <;> rfl
  | absent context => exact Recording.erase_silent _
  | insertion reference source =>
    rw [recordStep, step]
    cases reference.relation with
    | none => rfl
    | some named =>
      simp only [Recording.erase_bind, recordEnter, Recording.erase_noting]
      refine congrArg _ (funext fun entered => ?_)
      cases source.columns <;> simp [recordColumns]

/-- Without the record it is the scope. -/
theorem erase_recordStatement :
    (recordStatement schema s).erase = ofStatement schema s :=
  Recording.erase_foldlM (fun _ => erase_recordStep) s.scopeSteps {}

end Scope

/-! ## Surroundings of placeholders -/

/-- A reference to a column where it is looked up. -/
structure ColumnUse where
  name : ColumnName
  /-- The token it is looked up at. -/
  token : Nat
  first : Nat
  /-- The index after the last token. -/
  next : Nat

namespace Statement

variable {s : Statement}

/-- The reference that ends at token `last`. -/
def useEndingAt? (s : Statement) (last : Nat) : Option ColumnUse :=
  (s.columnEndingAt? last).map fun (name, start) => ⟨name, last, start, last + 1⟩

/-- `column op :x` -/
def useBefore? (s : Statement) (lo : Nat) : Option ColumnUse :=
  if 2 ≤ lo && s.isComparison (lo - 1) then
    s.useEndingAt? (if 0 < lo - 2 && s.isKeyword (lo - 2) "not" then lo - 3 else lo - 2)
  else none

/-- `:x op column` -/
def useAfter? (s : Statement) (hi : Nat) : Option ColumnUse :=
  let op := if s.isKeyword (hi + 1) "not" then hi + 2 else hi + 1
  if s.isComparison op then
    (s.columnAt? (op + 1)).map fun (name, next) => ⟨name, op + 1, op + 1, next⟩
  else none

/-- The reference before the word at token `i`, and before a `NOT` there. -/
def useBeforeWord? (s : Statement) (i : Nat) : Option ColumnUse :=
  (s.beforeNot? i).bind s.useEndingAt?

/-- `column BETWEEN :x` -/
def lowerBoundUse? (s : Statement) (lo : Nat) : Option ColumnUse :=
  if 2 ≤ lo && s.isKeyword (lo - 1) "between" then s.useBeforeWord? (lo - 1) else none

/-- `column BETWEEN … AND :x` -/
def upperBoundUse? (s : Statement) (lo : Nat) : Option ColumnUse :=
  if 3 ≤ lo && s.isKeyword (lo - 1) "and" then
    let keyword := s.clauseKeywordBefore (lo - 2)
    if s.isKeyword keyword "between" then s.useBeforeWord? keyword else none
  else none

/-- `column IN (…, :x, …)` -/
def listUse? (s : Statement) (lo hi : Nat) : Option ColumnUse :=
  let isItem := decide (0 < lo) && (s.is (lo - 1) .parenOpen || s.is (lo - 1) .comma) &&
    (s.is (hi + 1) .parenClose || s.is (hi + 1) .comma)
  match s.enclosing lo with
  | none => none
  | some opening =>
    if isItem && 0 < opening && s.isKeyword (opening - 1) "in" then s.useBeforeWord? (opening - 1)
    else none

/-- The reference that an operand from `lo` to `hi` takes its type from. -/
def contextUse? (s : Statement) (lo hi : Nat) : Option ColumnUse :=
  s.useBefore? lo <|> s.useAfter? hi <|> s.lowerBoundUse? lo <|> s.upperBoundUse? lo <|>
    s.listUse? lo hi

end Statement

namespace Typing

variable {s : Statement} {scope : Scope}

/-- The type of a column where it is used. -/
def typeOfUse (s : Statement) (scope : Scope) (use : ColumnUse) : Expectation :=
  columnType s scope use.token use.name use.first use.next

/-- The type of a column where it is used. -/
def recordTypeOfUse (s : Statement) (scope : Scope) (use : ColumnUse) : Recording Finding DataType :=
  (scope.recordLookup s use.token use.name use.first).through fun
    | .ok found => .ok found.column.type
    | .error fault => .error ⟨fault.cause use.name, .tokens use.first use.next⟩

/-- The type that the surroundings of the placeholder at token `i` ask for, if any. -/
def recordContextType (s : Statement) (scope : Scope) (i : Nat) :
    Option (Recording Finding DataType) :=
  let (lo, hi) := s.operand i
  (rowCount s lo).map .silent <|> (s.contextUse? lo hi).map (recordTypeOfUse s scope) <|>
    (insertedValue s scope lo hi).map .silent

/-- The placeholders that have no cast anywhere, each with its key. -/
def uncast (s : Statement) (parameters : List Parameter) : List (Nat × ParamKey) :=
  s.placeholders.filter fun (_, key) => !parameters.any fun p => p.key == key && p.hint.isSome

theorem erase_recordTypeOfUse (use : ColumnUse) :
    (recordTypeOfUse s scope use).erase = typeOfUse s scope use := by
  rw [recordTypeOfUse, Recording.erase_through, Scope.erase_recordLookup]
  unfold typeOfUse columnType
  cases scope.lookup s use.token use.name <;> rfl

theorem typeEndingAt_use (last : Nat) :
    typeEndingAt s scope last = (s.useEndingAt? last).map (typeOfUse s scope) := by
  rw [typeEndingAt, Statement.useEndingAt?, Option.map_map]
  rfl

theorem rangeColumn_use (i : Nat) :
    rangeColumn s scope i = (s.useBeforeWord? i).map (typeOfUse s scope) := by
  rw [rangeColumn, Statement.useBeforeWord?, Option.map_bind]
  exact congrArg _ (funext typeEndingAt_use)

/-- What comparisons, ranges and lists ask for is the type of one column. -/
theorem contextUse_eq (s : Statement) (scope : Scope) (lo hi : Nat) :
    (comparedAfter s scope lo <|> comparedBefore s scope hi <|> lowerBound s scope lo <|>
      upperBound s scope lo <|> listMember s scope lo hi) =
        (s.contextUse? lo hi).map (typeOfUse s scope) := by
  have after : comparedAfter s scope lo = (s.useBefore? lo).map (typeOfUse s scope) := by
    rw [comparedAfter, Statement.useBefore?, apply_ite (Option.map _), typeEndingAt_use]
    rfl
  have before : comparedBefore s scope hi = (s.useAfter? hi).map (typeOfUse s scope) := by
    simp only [comparedBefore, Statement.useAfter?, apply_ite (Option.map _), Option.map_map]
    rfl
  have lower : lowerBound s scope lo = (s.lowerBoundUse? lo).map (typeOfUse s scope) := by
    rw [lowerBound, Statement.lowerBoundUse?, apply_ite (Option.map _), rangeColumn_use]
    rfl
  have upper : upperBound s scope lo = (s.upperBoundUse? lo).map (typeOfUse s scope) := by
    simp only [upperBound, Statement.upperBoundUse?, apply_ite (Option.map _), rangeColumn_use]
    rfl
  have member : listMember s scope lo hi = (s.listUse? lo hi).map (typeOfUse s scope) := by
    unfold listMember Statement.listUse?
    cases s.enclosing lo with
    | none => rfl
    | some opening =>
      dsimp only
      rw [apply_ite (Option.map _), ← rangeColumn_use]
      rfl
  rw [after, before, lower, upper, member]
  simp only [Statement.contextUse?, Option.orElse_eq_orElse, Option.orElse_eq_or, Option.map_or]

theorem erase_recordContextType (i : Nat) :
    (recordContextType s scope i).map Recording.erase = contextType s scope i := by
  have use := contextUse_eq s scope (s.operand i).1 (s.operand i).2
  simp only [Option.orElse_eq_orElse, Option.orElse_eq_or, ← Option.or_assoc] at use
  simp only [recordContextType, contextType, Option.orElse_eq_orElse, Option.orElse_eq_or,
    Option.map_or, Option.map_map, Function.comp_def, Recording.erase_silent,
    erase_recordTypeOfUse, Option.map_id']
  rw [← use]
  simp only [Option.or_assoc]

/-- Without the record they are the uses that ask for a type. -/
theorem uses_eq_recorded (parameters : List Parameter) :
    uses s scope parameters = (uncast s parameters).filterMap fun (i, key) =>
      (recordContextType s scope i).map fun asks => ⟨i, key, asks.erase⟩ := by
  simp only [uses, uncast, ← erase_recordContextType, Option.map_map, Function.comp_def]

/-- A type does not change which placeholders are cast. -/
theorem uncast_typed (schema : Schema) (parameters : List Parameter) :
    uncast s (typeParameters schema s scope parameters).1 = uncast s parameters := by
  have kept : ∀ (p : Parameter) (expectation : Expectation) (key : ParamKey),
      ((assign p expectation).key == key && (assign p expectation).hint.isSome) =
        (p.key == key && p.hint.isSome) := by
    intro p expectation key
    cases expectation <;> rfl
  simp only [uncast, typeParameters, List.map_map, List.any_map, Function.comp_def, kept]

end Typing

end AnnotatedSql
