import AnnotatedSql.Projection.Basic
import AnnotatedSql.Proofs.Resolution.Recorded
import AnnotatedSql.Proofs.Statement.Reference

/-!
# Projections with a record

The items of a projection, with a record of what each of their names was resolved to. Without the record
they are the items themselves.
-/

namespace AnnotatedSql.Surroundings

open Recording

variable {env : Surroundings}

/-- A column named at token `i`. The tokens of the name run to before `next`. -/
def recordColumn (env : Surroundings) (i : Nat) (name : ColumnName) (next : Nat) :
    Recording ExpressionFault Expression :=
  (env.scope.recordLookup env.statement i name i).through fun
    | .ok found => .ok ⟨found.column.name, found.column.type, found.nullable⟩
    | .error fault => .error (.failed ⟨fault.cause name, .tokens i next⟩)

/-- The expression that is token `i` alone. -/
def recordToken (env : Surroundings) (i : Nat) : Recording ExpressionFault Expression :=
  let s := env.statement
  if s.isWord i && !s.isOneOf i ["true", "false"] then
    match s.columnPath? i with
    | some (name, next) => env.recordColumn i name next
    | none => silent (.error .untyped)
  else silent (env.token i)

/-- The field that token `i` names, of a composite expression. -/
def recordField (env : Surroundings) (whole : Expression) (i : Nat) :
    Recording ExpressionFault Expression :=
  noting (env.field whole i) fun _ =>
    let name := ((env.statement.name? i).map Name.text).getD ""
    ((whole.type.field? name).map fun field => ⟨i, .field whole.type field⟩).toList

/-- Reads the tokens from `lo` to before `hi` as an expression, with at most `fuel` of them. -/
def recordExpressionWithin (env : Surroundings) :
    Nat → Nat → Nat → Recording ExpressionFault Expression
  | 0, _, _ => silent (.error .untyped)
  | fuel + 1, lo, hi =>
    let s := env.statement
    if hi ≤ lo then silent (.error .untyped)
    else
      match s.trailingCast? lo hi with
      | some (cast, type) => (env.recordExpressionWithin fuel lo cast).through (env.cast type)
      | none =>
        if hi == lo + 1 then env.recordToken lo
        else
          match (s.columnPath? lo).filter fun (_, next) => next == hi with
          | some (name, next) => env.recordColumn lo name next
          | none =>
            if s.isCount lo hi then silent (.ok ⟨"count", .scalar .int8, false⟩)
            else
              match s.leadingGroup? lo hi with
              | none => silent (.error .untyped)
              | some closing =>
                match s.fieldPath? hi s.size (closing + 1) with
                | none => silent (.error .untyped)
                | some names => do
                  let whole ← env.recordExpressionWithin fuel (lo + 1) closing
                  names.foldlM env.recordField whole

/-- The expression in the tokens from `lo` to before `hi`. -/
def recordExpression (env : Surroundings) (lo hi : Nat) : Recording ExpressionFault Expression :=
  env.recordExpressionWithin (hi - lo) lo hi

/-- An item that is an expression up to `hi` under the alias at token `last`. -/
def recordAliased (env : Surroundings) (lo hi last : Nat) : Recording ExpressionFault Expression := do
  let expression ← env.recordExpression lo hi
  return { expression with
           name := ((env.statement.name? last).map Name.text).getD expression.name }

/-- An item that is one column. An expression of no known form may be one with an alias. -/
def recordSingle (env : Surroundings) (lo hi : Nat) : Recording ExpressionFault Expression :=
  let s := env.statement
  if s.hasAlias lo hi then env.recordAliased lo (hi - 2) (hi - 1)
  else
    match env.expression lo hi with
    | .error .untyped =>
      if s.mayEndInAlias lo hi then env.recordAliased lo (hi - 1) (hi - 1)
      else silent (.error .untyped)
    | _ => env.recordExpression lo hi

/-- The columns of one item of the projection. -/
def recordItem (env : Surroundings) (lo hi : Nat) : Recording Finding (List ResultColumn) :=
  let s := env.statement
  let entries := env.scope.statementEntries
  if s.isStar lo hi then silent (env.item lo hi)
  else
    match s.starQualifier? lo hi with
    | some qualifier =>
      noting (env.item lo hi) fun _ =>
        ((entries.find? (·.answersTo qualifier)).map fun entry => ⟨lo, .owner entry⟩).toList
    | none =>
      (env.recordSingle lo hi).through fun
        | .ok expression => .ok [⟨expression.name, expression.type, expression.nullable⟩]
        | .error (ExpressionFault.failed finding) => .error finding
        | .error ExpressionFault.untyped => .error ⟨.untypedExpression, .tokens lo hi⟩

/-! ## Without the record -/

theorem erase_recordColumn (i : Nat) (name : ColumnName) (next : Nat) :
    (env.recordColumn i name next).erase = env.column i name next := by
  rw [recordColumn, erase_through, Scope.erase_recordLookup]
  unfold column
  cases env.scope.lookup env.statement i name <;> rfl

theorem erase_recordToken (i : Nat) : (env.recordToken i).erase = env.token i := by
  unfold recordToken
  dsimp only
  split
  next word =>
    obtain ⟨word, plain⟩ := Bool.and_eq_true_iff.mp word
    have plain : env.statement.isOneOf i ["true", "false"] = false := by simpa using plain
    have path : env.token i = match env.statement.columnPath? i with
        | some (name, next) => env.column i name next
        | none => .error .untyped := by
      unfold token
      dsimp only
      rcases Statement.kind_of_word word with found | found <;>
        · rw [found]
          exact if_neg (by simp [plain])
    rw [path]
    split
    · exact erase_recordColumn ..
    · rfl
  · exact erase_silent _

theorem erase_recordField (whole : Expression) (i : Nat) :
    (env.recordField whole i).erase = env.field whole i :=
  erase_noting _ _

theorem erase_recordExpressionWithin (fuel lo hi : Nat) :
    (env.recordExpressionWithin fuel lo hi).erase = env.expressionWithin fuel lo hi := by
  induction fuel generalizing lo hi with
  | zero => rfl
  | succ fuel ih =>
    unfold recordExpressionWithin expressionWithin
    dsimp only
    split
    · rfl
    · cases env.statement.trailingCast? lo hi with
      | some cast => exact (erase_through _ _).trans (congrArg _ (ih lo cast.1))
      | none =>
        dsimp only
        split
        · exact erase_recordToken lo
        · cases (env.statement.columnPath? lo).filter fun (_, next) => next == hi with
          | some path => exact erase_recordColumn ..
          | none =>
            dsimp only
            split
            · rfl
            · cases env.statement.leadingGroup? lo hi with
              | none => rfl
              | some closing =>
                dsimp only
                cases env.statement.fieldPath? hi env.statement.size (closing + 1) with
                | none => rfl
                | some names =>
                  dsimp only
                  rw [erase_bind, ih]
                  exact congrArg _ (funext fun whole => erase_foldlM erase_recordField names whole)

theorem erase_recordExpression (lo hi : Nat) :
    (env.recordExpression lo hi).erase = env.expression lo hi :=
  erase_recordExpressionWithin _ lo hi

theorem erase_recordAliased (lo hi last : Nat) :
    (env.recordAliased lo hi last).erase = env.aliased lo hi last := by
  rw [recordAliased, erase_bind, erase_recordExpression]
  rfl

theorem erase_recordSingle (lo hi : Nat) : (env.recordSingle lo hi).erase = env.single lo hi := by
  unfold recordSingle single
  dsimp only
  split
  · exact erase_recordAliased ..
  · have expression := env.erase_recordExpression lo hi
    cases outcome : env.expression lo hi with
    | ok whole => exact expression.trans outcome
    | error fault =>
      cases fault with
      | failed finding => exact expression.trans outcome
      | untyped =>
        dsimp only
        split
        · exact erase_recordAliased ..
        · rfl

/-- Without the record it is the item. -/
theorem erase_recordItem (lo hi : Nat) : (env.recordItem lo hi).erase = env.item lo hi := by
  unfold recordItem
  dsimp only
  split
  · exact erase_silent _
  next noStar =>
    split
    · exact erase_noting _ _
    next unqualified =>
      unfold item
      dsimp only
      rw [if_neg noStar, unqualified, erase_through]
      have single := env.erase_recordSingle lo hi
      generalize (env.recordSingle lo hi).erase = outcome at single
      cases single
      rfl

/-- An item that is a field of an expression in parentheses, and nothing else. -/
theorem recordItem_of_field (env : Surroundings) (lo hi closing i : Nat) {whole : Expression} {name : Name}
    {found : Field DataType} {inner : List NameUse}
    (plain : env.statement.isStar lo hi = false ∧ env.statement.starQualifier? lo hi = none ∧
      env.statement.hasAlias lo hi = false)
    (inside : lo + 1 < hi) (noCast : env.statement.trailingCast? lo hi = none)
    (noPath : env.statement.columnPath? lo = none) (noCount : env.statement.isCount lo hi = false)
    (group : env.statement.leadingGroup? lo hi = some closing)
    (path : env.statement.fieldPath? hi env.statement.size (closing + 1) = some [i])
    (owner : env.recordExpressionWithin (hi - lo - 1) (lo + 1) closing = done whole inner)
    (named : env.statement.name? i = some name) (known : whole.type.field? name.text = some found) :
    env.recordItem lo hi =
      done [⟨found.name, found.type, true⟩] (inner ++ [⟨i, .field whole.type found⟩]) := by
  have field : env.recordField whole i =
      done ⟨found.name, found.type, true⟩ [⟨i, .field whole.type found⟩] := by
    simp only [recordField, Surroundings.field, named, Option.map_some, Option.getD_some, known]
    rfl
  have access : env.recordExpression lo hi =
      done ⟨found.name, found.type, true⟩ (inner ++ [⟨i, .field whole.type found⟩]) := by
    obtain ⟨fuel, enough⟩ : ∃ fuel, hi - lo = fuel + 1 := ⟨hi - lo - 1, by omega⟩
    rw [enough, Nat.add_sub_cancel] at owner
    unfold recordExpression
    rw [enough, recordExpressionWithin]
    dsimp only
    rw [if_neg (by omega), noCast]
    dsimp only
    rw [if_neg (by simpa using (by omega : hi ≠ lo + 1)), noPath, Option.filter_none, noCount, group]
    dsimp only
    rw [path]
    dsimp only
    rw [owner]
    refine bind_done ?_
    rw [List.foldlM_cons, field]
    exact bind_done rfl
  have value : env.expression lo hi = .ok ⟨found.name, found.type, true⟩ := by
    rw [← erase_recordExpression, access, erase_done]
  have single : env.recordSingle lo hi =
      done ⟨found.name, found.type, true⟩ (inner ++ [⟨i, .field whole.type found⟩]) := by
    unfold recordSingle
    dsimp only
    rw [plain.2.2, value]
    exact access
  unfold recordItem
  dsimp only
  rw [plain.1, plain.2.1, single]
  rfl

end AnnotatedSql.Surroundings
