import AnnotatedSql.Proofs.Checked.Typing

/-!
# Projections and the ends of items

An item of a projection is looked at from both ends: it may end in an alias or in a closing
parenthesis. Only items with enough tokens are looked at from the end, and an item without a type
has tokens to be shown.
-/

namespace AnnotatedSql

namespace Checked

/-! ## Expressions -/

/-- The last cast of the tokens `lo` to before `hi` if it is the last thing there. -/
def trailingCast? (s : Statement) (lo hi : Nat) : Checked (Option (Nat × TypeName)) :=
  match s.lastCast? lo hi with
  | none => pure none
  | some cast => do
    match ← typeName? s (cast + 1) with
    | none => pure none
    | some type => pure (if type.hi == hi then some (cast, type) else none)

/-- Whether the tokens are a call of `count`. -/
def isCount (s : Statement) (lo hi : Nat) : Checked Bool :=
  both (s.isKeyword lo "count" && s.is (lo + 1) .parenOpen) do
    let last ← sub hi 1
    pure (s.partner (lo + 1) == some last)

/-- A column named at token `i`. The tokens of the name run to before `next`. -/
def column (env : Surroundings) (i : Nat) (name : ColumnName) (next : Nat) :
    Checked (Except ExpressionFault Expression) := do
  match ← lookup env.scope env.statement i name with
  | .ok found => pure (.ok ⟨found.column.name, found.column.type, found.nullable⟩)
  | .error fault => pure (.error (.failed ⟨fault.cause name, .tokens i next⟩))

/-- The expression that is token `i` alone. -/
def alone (env : Surroundings) (i : Nat) : Checked (Except ExpressionFault Expression) :=
  let s := env.statement
  if s.isWord i && !s.isOneOf i ["true", "false"] then
    match s.columnPath? i with
    | some (name, next) => column env i name next
    | none => pure (.error .untyped)
  else pure (env.token i)

/-- Reads the tokens from `lo` to before `hi` as an expression, with at most `fuel` of them. -/
def expressionWithin (env : Surroundings) :
    Nat → Nat → Nat → Checked (Except ExpressionFault Expression)
  | 0, _, _ => pure (.error .untyped)
  | fuel + 1, lo, hi =>
    let s := env.statement
    if hi ≤ lo then pure (.error .untyped)
    else do
      match ← trailingCast? s lo hi with
      | some (cast, type) => do
        let operand ← expressionWithin env fuel lo cast
        pure (env.cast type operand)
      | none =>
        if hi == lo + 1 then alone env lo
        else
          match (s.columnPath? lo).filter fun path => path.2 == hi with
          | some (name, next) => column env lo name next
          | none => do
            let counts ← isCount s lo hi
            if counts then pure (.ok ⟨"count", .scalar .int8, false⟩)
            else
              match s.leadingGroup? lo hi with
              | none => pure (.error .untyped)
              | some closing => do
                let last ← sub hi 1
                if closing == last then expressionWithin env fuel (lo + 1) closing
                else
                  match s.fieldPath? hi s.size (closing + 1) with
                  | none => pure (.error .untyped)
                  | some names => do
                    let whole ← expressionWithin env fuel (lo + 1) closing
                    pure (whole.bind fun whole => names.foldlM env.field whole)

/-- The expression in the tokens from `lo` to before `hi`. -/
def expression (env : Surroundings) (lo hi : Nat) :
    Checked (Except ExpressionFault Expression) := expressionWithin env (hi - lo) lo hi

/-! ## Items -/

/-- Whether the item ends in `AS name`. -/
def hasAlias (s : Statement) (lo hi : Nat) : Checked Bool :=
  both (decide (lo + 3 ≤ hi)) do
    let last ← sub hi 1
    let word ← sub hi 2
    pure (s.isKeyword word "as" && s.isWord last)

/-- Whether the last word of the item may be an alias without `AS`. -/
def mayEndInAlias (s : Statement) (lo hi : Nat) : Checked Bool :=
  both (decide (lo + 2 ≤ hi)) do
    let last ← sub hi 1
    let word ← sub hi 2
    pure (s.isWord last && !s.isClauseKeyword last && !(s.is word .dot || s.is word .doubleColon))

/-- An item that is an expression up to `hi` under the alias at token `last`. -/
def aliased (env : Surroundings) (lo hi last : Nat) :
    Checked (Except ExpressionFault Expression) := do
  let outcome ← expression env lo hi
  pure (outcome.bind fun expression => pure { expression with
    name := ((env.statement.name? last).map Name.text).getD expression.name })

/-- An item that is one column. -/
def single (env : Surroundings) (lo hi : Nat) : Checked (Except ExpressionFault Expression) := do
  let named ← hasAlias env.statement lo hi
  if named then do
    let stop ← sub hi 2
    let last ← sub hi 1
    aliased env lo stop last
  else do
    match ← expression env lo hi with
    | .error .untyped => do
      let named ← mayEndInAlias env.statement lo hi
      if named then do
        let last ← sub hi 1
        aliased env lo last last
      else pure (.error .untyped)
    | outcome => pure outcome

/-- The columns of one item of the projection. -/
def item (env : Surroundings) (lo hi : Nat) : Checked (Except Finding (List ResultColumn)) :=
  let s := env.statement
  let entries := env.scope.statementEntries
  if s.isStar lo hi then pure (.ok ((entries.flatMap ScopeEntry.columns).map .ofFound))
  else
    match s.starQualifier? lo hi with
    | some qualifier =>
      match entries.find? (·.answersTo qualifier) with
      | some entry => pure (.ok (entry.columns.map .ofFound))
      | none => do
        let place ← token s lo
        pure (.error ⟨.unknownRelation qualifier.text, place⟩)
    | none => do
      match ← single env lo hi with
      | .ok expression => pure (.ok [⟨expression.name, expression.type, expression.nullable⟩])
      | .error (.failed finding) => pure (.error finding)
      | .error .untyped => do
        let place ← tokens s lo hi
        pure (.error ⟨.untypedExpression, place⟩)

/-- The finding in the outcome of an item that fails. -/
def findingOf? : Except Finding (List ResultColumn) → Option Finding
  | .error finding => some finding
  | .ok _ => none

/-- The result of a statement. -/
def project (env : Surroundings) : Checked (Analyzed QueryResult) :=
  match env.statement.projectionItems? with
  | none => pure ⟨some .execute, []⟩
  | some items => do
    let outcomes ← items.mapM fun range => item env range.1 range.2
    let findings := outcomes.filterMap findingOf?
    let columns := (outcomes.filterMap Except.toOption).flatten
    pure ⟨if findings.isEmpty then some (.rows columns) else none, findings⟩

/-! ## No trap is met -/

section

variable {s : Statement} {lo hi : Nat}

theorem trailingCast_eq (paired : s.Paired) :
    trailingCast? s lo hi = pure (s.trailingCast? lo hi) := by
  unfold trailingCast? Statement.trailingCast?
  cases s.lastCast? lo hi with
  | none => rfl
  | some cast =>
    dsimp only [Option.bind_eq_bind, Option.bind_some]
    rw [typeName_eq paired, pure_bind]
    cases s.typeName? (cast + 1) <;> rfl

theorem isCount_eq (positive : 0 < hi) : isCount s lo hi = pure (s.isCount lo hi) :=
  both_sub (fun _ => positive) fun last => s.partner (lo + 1) == some last

theorem hasAlias_eq : hasAlias s lo hi = pure (s.hasAlias lo hi) := by
  unfold hasAlias Statement.hasAlias
  rw [both_pair (fun long => by have := of_decide_eq_true long; omega)
    fun last word => s.isKeyword word "as" && s.isWord last, ← Bool.and_assoc]

theorem mayEndInAlias_eq : mayEndInAlias s lo hi = pure (s.mayEndInAlias lo hi) := by
  unfold mayEndInAlias Statement.mayEndInAlias
  rw [both_pair (fun long => Nat.le_trans (Nat.le_add_left 2 lo) (of_decide_eq_true long))
    fun last word => s.isWord last && !s.isClauseKeyword last &&
      !(s.is word .dot || s.is word .doubleColon), ← Bool.and_assoc, ← Bool.and_assoc]

end

variable {env : Surroundings} {i lo hi : Nat}

theorem column_eq {name : ColumnName} {next : Nat} :
    column env i name next = pure (env.column i name next) := by
  unfold column Surroundings.column
  rw [lookup_eq, pure_bind]
  cases env.scope.lookup env.statement i name <;> rfl

theorem alone_eq : alone env i = pure (env.token i) := by
  unfold alone
  dsimp only
  split
  next word =>
    rw [Bool.and_eq_true, Bool.not_eq_true'] at word
    obtain ⟨kind, read, isWord⟩ := Option.any_eq_true _ _ |>.mp word.1
    have token : env.token i = (match env.statement.columnPath? i with
        | some (name, next) => env.column i name next
        | none => .error .untyped) := by
      unfold Surroundings.token
      dsimp only
      rw [read]
      cases kind with
      | ident | quotedIdent =>
        cases env.statement.columnPath? i <;>
          simp only [word.2, Bool.false_eq_true, if_false]
      | _ => cases isWord
    rw [token]
    cases env.statement.columnPath? i with
    | none => rfl
    | some path => exact column_eq
  · rfl

/-- A path that ends where it begins has no names. -/
theorem fieldPath_end {s : Statement} (fuel : Nat) : s.fieldPath? hi fuel hi = some [] := by
  cases fuel with
  | zero => simp [Statement.fieldPath?]
  | succ fuel => simp [Statement.fieldPath?]

section

variable (paired : env.statement.Paired)

include paired

theorem expressionWithin_eq {fuel : Nat} :
    expressionWithin env fuel lo hi = pure (env.expressionWithin fuel lo hi) := by
  induction fuel generalizing lo hi with
  | zero => rfl
  | succ fuel ih =>
    unfold expressionWithin Surroundings.expressionWithin
    dsimp only
    split
    · rfl
    -- The stages are in the order of the definition. An index before the end exists, as `lo < hi`.
    next long =>
      rw [trailingCast_eq paired, pure_bind]
      cases env.statement.trailingCast? lo hi with
      | some found =>
        obtain ⟨cast, type⟩ := found
        dsimp only
        rw [ih, pure_bind]
      | none =>
        dsimp only
        split
        · exact alone_eq
        cases (env.statement.columnPath? lo).filter fun path => path.2 == hi with
        | some path => exact column_eq
        | none =>
          dsimp only
          rw [isCount_eq (by omega), pure_bind]
          split
          · rfl
          cases env.statement.leadingGroup? lo hi with
          | none => rfl
          | some closing =>
            dsimp only
            rw [sub_eq (by omega), pure_bind, ih]
            split
            next whole =>
              have ends : closing + 1 = hi := by
                have := eq_of_beq whole
                omega
              rw [ends, fieldPath_end]
              dsimp only
              cases env.expressionWithin fuel (lo + 1) closing <;> rfl
            · cases env.statement.fieldPath? hi env.statement.size (closing + 1) with
              | none => rfl
              | some names => rfl

theorem aliased_eq {last : Nat} : aliased env lo hi last = pure (env.aliased lo hi last) := by
  unfold aliased expression
  rw [expressionWithin_eq paired, pure_bind]
  rfl

theorem single_eq : single env lo hi = pure (env.single lo hi) := by
  unfold single Surroundings.single
  rw [hasAlias_eq, pure_bind]
  dsimp only
  split
  next named =>
    unfold Statement.hasAlias at named
    simp only [Bool.and_eq_true, decide_eq_true_iff] at named
    rw [sub_eq (by omega), pure_bind, sub_eq (by omega), pure_bind, aliased_eq paired]
  · unfold expression
    rw [expressionWithin_eq paired, pure_bind]
    change _ = pure (match env.expressionWithin (hi - lo) lo hi with
      | .error .untyped => _
      | outcome => outcome)
    split
    · rw [mayEndInAlias_eq, pure_bind]
      split
      next named =>
        unfold Statement.mayEndInAlias at named
        simp only [Bool.and_eq_true, decide_eq_true_iff] at named
        rw [sub_eq (by omega), pure_bind, aliased_eq paired]
      · rfl
    · rfl

theorem item_eq (begins : lo < env.statement.size) (ends : hi ≤ env.statement.size) :
    item env lo hi = pure (env.item lo hi) := by
  unfold item Surroundings.item
  dsimp only
  split
  · rfl
  cases env.statement.starQualifier? lo hi with
  | some qualifier =>
    dsimp only
    cases env.scope.statementEntries.find? (·.answersTo qualifier) with
    | some entry => rfl
    | none =>
      dsimp only
      rw [token_eq begins, pure_bind]
  | none =>
    dsimp only
    rw [single_eq paired, pure_bind]
    rcases env.single lo hi with (_ | finding) | expression
    · dsimp only
      rw [tokens_eq begins ends, pure_bind]
    · rfl
    · rfl

/-- Projecting meets no trap. -/
theorem project_eq : project env = pure (AnnotatedSql.project env) := by
  unfold project AnnotatedSql.project
  cases listed : env.statement.projectionItems? with
  | none => rfl
  | some items =>
    dsimp only
    rw [mapM_eq fun range member => ?_, pure_bind]
    · rfl
    · obtain ⟨begins, ends⟩ := Statement.projectionItems_bounds listed member
      exact item_eq paired begins ends

end

end Checked

end AnnotatedSql
