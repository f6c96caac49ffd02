import AnnotatedSql.Proofs.Checked.Basic
import AnnotatedSql.Scope.Basic

/-!
# Scopes and the token before

What a word does to the scope may depend on the token before it, which the first token of a
statement lacks. A lookup takes the one column that is found only where there is one.
-/

namespace AnnotatedSql

namespace Checked

/-- Whether the token before `i` is the keyword. -/
def isAfter (s : Statement) (i : Nat) (keyword : String) : Checked Bool :=
  if 0 < i then do
    let before ← sub i 1
    pure (s.isKeyword before keyword)
  else pure false

/-- Whether a statement may start at token `i`. -/
def startsStatement (s : Statement) (i : Nat) : Checked Bool :=
  if i == 0 then pure true
  else do
    let before ← sub i 1
    pure (s.is before .parenOpen || s.is before .parenClose || s.is before .semicolon)

/-- The join at token `i`, or the `OUTER` before it. -/
def joinSide (s : Statement) (i : Nat) : Checked Nat := do
  let outer ← isAfter s i "outer"
  if outer then sub i 1 else pure i

/-- Whether the join at token `i` is of the given kind. -/
def isJoin (s : Statement) (i : Nat) (kind : String) : Checked Bool := do
  let side ← joinSide s i
  isAfter s side kind

/-- The join at token `i`. -/
def joinSteps (s : Statement) (i : Nat) : Checked (List ScopeStep) := do
  let left ← isJoin s i "left"
  let right ← isJoin s i "right"
  let full ← isJoin s i "full"
  let earlier := if right || full then [ScopeStep.absent (s.queryContext i)] else []
  let added := (s.tableReference? (i + 1)).map fun reference =>
    ScopeStep.table reference (left || full)
  pure (earlier ++ added.toList)

/-- What the word at token `i` does to the scope. -/
def scopeStepsAt (s : Statement) (i : Nat) : Checked (List ScopeStep) :=
  if !s.isClauseLevel i then pure []
  else if s.isKeyword i "from" then pure ((s.tableList s.size (i + 1)).map (.table · false))
  else if s.isKeyword i "join" then joinSteps s i
  else do
    let updates ← both (s.isKeyword i "update") (startsStatement s i)
    let inserts ← both (s.isKeyword i "into") (isAfter s i "insert")
    if updates then pure ((s.tableReference? (i + 1)).toList.map (.table · false))
    else if inserts then pure ((s.relationReference? (i + 1)).toList.map fun reference =>
      .insertion reference (s.insertSource reference.next))
    else pure []

/-- The scope of a statement. -/
def scope (schema : Schema) (s : Statement) : Checked (Except Finding Scope) := do
  let steps ← (List.range s.size).mapM (scopeStepsAt s)
  pure (steps.flatten.foldlM (Scope.step schema s) {})

/-- Looks for a column in one query after another. -/
def lookupIn (scope : Scope) (name : ColumnName) :
    List (Option Nat) → Checked (Except LookupFault FoundColumn)
  | [] => pure (.error .unknown)
  | context :: outer =>
    let found := scope.candidates name context
    if found.length == 0 then lookupIn scope name outer
    else if found.length == 1 then do
      let only ← get found 0
      pure (.ok only)
    else pure (.error .ambiguous)

/-- The column that a name at token `i` stands for. -/
def lookup (scope : Scope) (s : Statement) (i : Nat) (name : ColumnName) :
    Checked (Except LookupFault FoundColumn) := lookupIn scope name (s.contexts i)

/-! ## No trap is met -/

variable {s : Statement} {i : Nat}

theorem isAfter_eq (keyword : String) :
    isAfter s i keyword = pure (decide (0 < i) && s.isKeyword (i - 1) keyword) := by
  unfold isAfter
  by_cases positive : 0 < i
  · rw [if_pos positive, sub_eq positive, pure_bind, decide_eq_true positive, Bool.true_and]
  · rw [if_neg positive, decide_eq_false positive, Bool.false_and]

theorem startsStatement_eq : startsStatement s i = pure (s.startsStatement i) := by
  unfold startsStatement Statement.startsStatement
  cases i with
  | zero => rfl
  | succ before =>
    rw [sub_eq (Nat.succ_pos before), pure_bind]
    simp

theorem isJoin_eq (kind : String) : isJoin s i kind = pure (s.isJoin i kind) := by
  unfold isJoin joinSide Statement.isJoin
  rw [isAfter_eq, pure_bind]
  cases outer : decide (0 < i) && s.isKeyword (i - 1) "outer" with
  | true =>
    rw [Bool.and_eq_true, decide_eq_true_iff] at outer
    rw [if_pos rfl, if_pos rfl, sub_eq outer.1, pure_bind, isAfter_eq]
  | false =>
    rw [if_neg Bool.false_ne_true, if_neg Bool.false_ne_true, pure_bind, isAfter_eq]

theorem joinSteps_eq : joinSteps s i = pure (s.joinSteps i) := by
  unfold joinSteps Statement.joinSteps
  rw [isJoin_eq, pure_bind, isJoin_eq, pure_bind, isJoin_eq, pure_bind]

theorem scopeStepsAt_eq : scopeStepsAt s i = pure (s.scopeStepsAt i) := by
  unfold scopeStepsAt Statement.scopeStepsAt
  rw [joinSteps_eq, both_eq startsStatement_eq, both_eq (isAfter_eq _), pure_bind, pure_bind,
    ← Bool.and_assoc]
  split
  · rfl
  split
  · rfl
  split
  · rfl
  split
  · rfl
  split <;> rfl

theorem scope_eq (schema : Schema) : scope schema s = pure (Scope.ofStatement schema s) := by
  unfold scope Scope.ofStatement Statement.scopeSteps
  rw [mapM_eq fun i _ => scopeStepsAt_eq, pure_bind, List.flatMap_def]

theorem lookupIn_eq {scope : Scope} {name : ColumnName} (contexts : List (Option Nat)) :
    lookupIn scope name contexts = pure (scope.lookupIn name contexts) := by
  induction contexts with
  | nil => rfl
  | cons context outer ih =>
    unfold lookupIn Scope.lookupIn
    dsimp only
    rcases scope.candidates name context with _ | ⟨first, _ | ⟨second, others⟩⟩
    · exact ih
    · rfl
    · rfl

theorem lookup_eq {scope : Scope} {name : ColumnName} :
    lookup scope s i name = pure (scope.lookup s i name) := lookupIn_eq _

end Checked

end AnnotatedSql
