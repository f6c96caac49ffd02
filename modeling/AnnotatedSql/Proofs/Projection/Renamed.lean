import AnnotatedSql.Proofs.Projection.Bare
import AnnotatedSql.Proofs.Projection.Typed
import AnnotatedSql.Proofs.Resolution.Mirrored
import Mathlib.Data.List.Find

/-!
# Columns of statements with other placeholders

With its placeholders renamed, and its names spelled in a way that no lookup notices, every
expression has the same type and may be null alike. Its name is the same too, unless the expression
is a placeholder and nothing else.
-/

namespace AnnotatedSql

/-- The kind of what is wrong with an expression, if it is of a known form. -/
def ExpressionFault.kind? : ExpressionFault → Option DiagnosticKind
  | untyped => none
  | failed finding => some finding.kind

namespace Surroundings

/-- The second surroundings are the first with the placeholders of the statement renamed and its
names spelled anew. -/
structure Renames (respell : Name → Name) (plain : Name → Prop) (rename : ParamKey → ParamKey)
    (change : Parameter → Parameter) (env other : Surroundings) : Prop where
  renames : env.statement.Renames respell rename other.statement
  changes : ChangesKeys rename change env.statement env.parameters
  unnoticed : Unnoticed respell plain env.schema
  names : env.statement.AllNames plain
  within : env.Within
  schema : other.schema = env.schema
  scope : other.scope = env.scope.respelled respell
  parameters : other.parameters = env.parameters.map change

/-- Outcomes that are the same but for the words of what is wrong. -/
def Alike (outcome other : Except ExpressionFault Expression) : Prop :=
  mapBoth ExpressionFault.kind? id other = mapBoth ExpressionFault.kind? id outcome

/-- The outcomes of reading the same tokens: alike, or those of one placeholder. -/
inductive Agree (change : Parameter → Parameter) (env : Surroundings) (lo hi : Nat) :
    Except ExpressionFault Expression → Except ExpressionFault Expression → Prop
  | same {outcome other : Except ExpressionFault Expression} (alike : Alike outcome other) :
      Agree change env lo hi outcome other
  | placeholder {i : Nat} {p : Parameter} {type : DataType} {nullable : Bool}
      (bare : env.statement.Bare lo hi i) (key : env.statement.paramKey? i = some p.key)
      (member : p ∈ env.parameters) (typed : ∃ found, env.placeholder i = .ok found) :
      Agree change env lo hi (.ok ⟨p.name, type, nullable⟩) (.ok ⟨(change p).name, type, nullable⟩)

/-- Outcomes that are alike are the same expression, both of no known form, or both faulty. -/
theorem Alike.cases {outcome other : Except ExpressionFault Expression} (alike : Alike outcome other) :
    (∃ expression, outcome = .ok expression ∧ other = .ok expression) ∨
      outcome = .error .untyped ∧ other = .error .untyped ∨
      ∃ finding otherFinding, outcome = .error (.failed finding) ∧
        other = .error (.failed otherFinding) ∧ otherFinding.kind = finding.kind := by
  unfold Alike at alike
  cases outcome with
  | ok expression =>
    cases other with
    | ok found => exact Or.inl ⟨expression, rfl, congrArg Except.ok (Except.ok.inj alike)⟩
    | error _ => cases alike
  | error fault =>
    cases other with
    | ok _ => cases alike
    | error otherFault =>
      have kinds := Except.error.inj alike
      cases fault with
      | untyped =>
        cases otherFault with
        | untyped => exact Or.inr (Or.inl ⟨rfl, rfl⟩)
        | failed _ => cases kinds
      | failed finding =>
        cases otherFault with
        | untyped => cases kinds
        | failed otherFinding =>
          exact Or.inr (Or.inr ⟨finding, otherFinding, rfl, rfl, Option.some.inj kinds⟩)

/-- Outcomes that agree are followed alike if what follows looks at the type of the expression. -/
theorem Agree.bind {change : Parameter → Parameter} {env : Surroundings} {lo hi : Nat}
    {outcome other : Except ExpressionFault Expression}
    {next otherNext : Expression → Except ExpressionFault Expression}
    (agree : Agree change env lo hi outcome other)
    (nextAlike : ∀ whole otherWhole, outcome = .ok whole → otherWhole.type = whole.type →
      Alike (next whole) (otherNext otherWhole)) :
    Alike (outcome >>= next) (other >>= otherNext) := by
  cases agree with
  | same alike =>
    exact mapBoth_bind_alike alike fun whole entered => nextAlike whole whole entered rfl
  | placeholder _ _ _ _ => exact nextAlike _ _ rfl rfl

variable {respell : Name → Name} {plain : Name → Prop} {rename : ParamKey → ParamKey}
  {change : Parameter → Parameter} {env other : Surroundings}
  (renamed : Renames respell plain rename change env other)

include renamed

theorem column_renamed (i : Nat) {name : ColumnName} (next : Nat)
    (isPlain : ∀ part ∈ name.qualifier, plain part) :
    Alike (env.column i name next) (other.column i (name.respelled respell) next) := by
  unfold Alike column
  rw [renamed.scope, Scope.lookup_mirrored renamed.unnoticed renamed.renames.mirrors
    renamed.within.scope i isPlain]
  cases env.scope.lookup env.statement i name with
  | ok found => rfl
  | error fault => cases fault <;> rfl

theorem field_renamed {whole : Expression} (offered : env.schema.Offers whole.type) (i : Nat) :
    Alike (env.field whole i) (other.field whole i) := by
  unfold Alike field
  rw [renamed.renames.mirrors.name]
  cases env.statement.name? i with
  | none => rfl
  | some name =>
    have same := renamed.unnoticed.field whole.type offered name
    dsimp only [Option.map_some, Option.getD_some]
    rw [same]
    cases whole.type.field? name.text <;> rfl

/-- A placeholder is its parameter in both surroundings, or understood in neither. -/
theorem placeholder_cases (i : Nat) :
    env.placeholder i = .error .untyped ∧ other.placeholder i = .error .untyped ∨
      ∃ p ∈ env.parameters, env.statement.paramKey? i = some p.key ∧
        env.placeholder i = .ok ⟨p.name, p.type, false⟩ ∧
        other.placeholder i = .ok ⟨(change p).name, p.type, false⟩ := by
  unfold placeholder
  rw [renamed.renames.paramKey, renamed.parameters]
  cases read : env.statement.paramKey? i with
  | none => exact Or.inl ⟨rfl, rfl⟩
  | some key =>
    dsimp only [Option.map_some, Option.bind_some]
    have used : key ∈ env.statement.keys := Statement.mem_keys.mpr ⟨i, read⟩
    have found : env.parameters.find? ((fun p => p.key == rename key && p.type.isResolved) ∘
          change) =
        env.parameters.find? fun p => p.key == key && p.type.isResolved := by
      refine List.find?_congr fun p member => ?_
      rw [Function.comp_apply, renamed.changes.key_beq renamed.renames.injective member used,
        renamed.changes.type p]
    rw [List.find?_map, found]
    cases typed : env.parameters.find? fun p => p.key == key && p.type.isResolved with
    | none => exact Or.inl ⟨rfl, rfl⟩
    | some p =>
      have accepted := List.find?_some typed
      rw [Bool.and_eq_true, beq_iff_eq] at accepted
      refine Or.inr ⟨p, List.mem_of_find?_eq_some typed, by rw [accepted.1], rfl, ?_⟩
      dsimp only [Option.map_some]
      rw [renamed.changes.type p]

theorem placeholder_renamed {i : Nat} (param : env.statement.isParam i = true) :
    Agree change env i (i + 1) (env.placeholder i) (other.placeholder i) := by
  rcases placeholder_cases renamed i with ⟨old, new⟩ | ⟨p, member, key, old, new⟩
  · rw [old, new]
    exact .same rfl
  · rw [old, new]
    exact .placeholder (.token param) key member ⟨_, old⟩

/-- A token that is no placeholder is read alike. -/
theorem token_renamed_of_not {i : Nat} (param : env.statement.isParam i = false) :
    Alike (env.token i) (other.token i) := by
  have kind := renamed.renames.mirrors.kind param
  unfold token
  dsimp only
  rw [kind]
  unfold Statement.isParam at param
  cases found : env.statement.kind? i with
  | none => rfl
  | some kind =>
    rw [found] at param
    cases kind with
    | positionalParam => cases param
    | namedParam => cases param
    | ident | quotedIdent =>
      dsimp only
      rw [renamed.renames.mirrors.isOneOf, renamed.renames.mirrors.columnPath]
      split
      · rfl
      · cases path : env.statement.columnPath? i with
        | none => rfl
        | some found =>
          exact column_renamed renamed i found.2 (renamed.names.columnPath path)
    | number =>
      have isNumber : env.statement.is i .number = true := beq_iff_eq.mpr found
      dsimp only
      rw [renamed.renames.mirrors.number i isNumber]
      rfl
    | _ => rfl

theorem token_renamed (i : Nat) : Agree change env i (i + 1) (env.token i) (other.token i) := by
  cases param : env.statement.isParam i with
  | true =>
    have otherParam := (renamed.renames.mirrors.isParam i).trans param
    rw [token_of_isParam param, token_of_isParam otherParam]
    exact placeholder_renamed renamed param
  | false => exact .same (token_renamed_of_not renamed param)

/-- Casts change the type of an operand and nothing else. -/
theorem cast_renamed {lo hi cast : Nat} {type : TypeName}
    {operand otherOperand : Except ExpressionFault Expression}
    (trailing : env.statement.trailingCast? lo hi = some (cast, type))
    (agree : Agree change env lo cast operand otherOperand) :
    Agree change env lo hi (env.cast type operand) (other.cast type otherOperand) := by
  unfold Surroundings.cast
  rw [renamed.schema]
  cases env.schema.typeNamed? type.text with
  | none => exact .same rfl
  | some target =>
    cases agree with
    | same alike =>
      rcases alike.cases with ⟨expression, rfl, rfl⟩ | ⟨rfl, rfl⟩ | ⟨finding, found, rfl, rfl, kind⟩
      · exact .same rfl
      · exact .same rfl
      · exact .same (congrArg (Except.error ∘ some) kind)
    | placeholder bare key member typed =>
      exact .placeholder (.cast trailing bare) key member typed

theorem fields_renamed {whole otherWhole : Expression} (offered : env.schema.Offers whole.type)
    (names : List Nat) (some : names ≠ []) (type : otherWhole.type = whole.type) :
    Alike (names.foldlM env.field whole) (names.foldlM other.field otherWhole) := by
  obtain ⟨first, rest, rfl⟩ := List.exists_cons_of_ne_nil some
  have start : other.field otherWhole first = other.field whole first := by
    unfold field
    rw [type]
  have run := mapBoth_foldlM_alike (fun part : Expression => env.schema.Offers part.type)
    (fun _ _ _ offered read => field_offered offered read)
    (fun part i (_ : i ∈ first :: rest) offered => field_renamed renamed offered i) offered
  rw [List.map_id'] at run
  unfold Alike
  rw [List.foldlM_cons, start, ← List.foldlM_cons]
  exact run

/-- A group is what is in it, or a field of that. -/
theorem group_renamed {lo hi closing fuel : Nat} {names : List Nat}
    {inside otherInside : Except ExpressionFault Expression}
    (opens : env.statement.leadingGroup? lo hi = some closing)
    (path : env.statement.fieldPath? hi fuel (closing + 1) = some names)
    (offered : ∀ whole, inside = .ok whole → env.schema.Offers whole.type)
    (agree : Agree change env (lo + 1) closing inside otherInside) :
    Agree change env lo hi (inside >>= fun whole => names.foldlM env.field whole)
      (otherInside >>= fun whole => names.foldlM other.field whole) := by
  cases names with
  | nil =>
    have ends : closing + 1 = hi := by
      cases Statement.isFieldPath_of_read path
      rfl
    simp only [List.foldlM_nil, bind_pure]
    cases agree with
    | same alike => exact .same alike
    | placeholder bare key member typed =>
      exact .placeholder (.parens opens ends bare) key member typed
  | cons name names =>
    exact .same (agree.bind fun whole _ entered type =>
      fields_renamed renamed (offered whole entered) (name :: names) (by simp) type)

omit renamed in
theorem filter_respelled (respell : Name → Name) (path : Option (ColumnName × Nat)) (hi : Nat) :
    ((path.map fun (name, next) => (name.respelled respell, next)).filter
        fun (_, next) => next == hi) =
      (path.filter fun (_, next) => next == hi).map
        fun (name, next) => (name.respelled respell, next) := by
  cases path with
  | none => rfl
  | some found =>
    simp only [Option.map_some, Option.filter_some]
    split <;> rfl

/-- Expressions agree: by induction on the tokens left, with one case for each form. -/
theorem expressionWithin_renamed (fuel lo hi : Nat) :
    Agree change env lo hi (env.expressionWithin fuel lo hi) (other.expressionWithin fuel lo hi) := by
  induction fuel generalizing lo hi with
  | zero => exact .same rfl
  | succ fuel ih =>
    have mirrors := renamed.renames.mirrors
    unfold expressionWithin
    dsimp only
    rw [mirrors.trailingCast, mirrors.columnPath, mirrors.isCount, mirrors.leadingGroup,
      mirrors.size]
    simp only [mirrors.fieldPath]
    split
    · exact .same rfl
    split
    next cast type found => exact cast_renamed renamed found (ih lo cast)
    split
    next single =>
      obtain rfl := eq_of_beq single
      exact token_renamed renamed lo
    rw [filter_respelled respell]
    cases path : (env.statement.columnPath? lo).filter fun (_, next) => next == hi with
    | some found =>
      have read := (Option.filter_eq_some_iff.mp path).1
      exact .same (column_renamed renamed lo found.2 (renamed.names.columnPath read))
    | none =>
      dsimp only [Option.map_none]
      split
      · exact .same rfl
      split
      · exact .same rfl
      next closing opens =>
      split
      · exact .same rfl
      next names fields =>
      exact group_renamed renamed opens fields
        (fun _ inside => expressionWithin_offered renamed.within inside) (ih (lo + 1) closing)

theorem expression_renamed (lo hi : Nat) :
    Agree change env lo hi (env.expression lo hi) (other.expression lo hi) :=
  expressionWithin_renamed renamed (hi - lo) lo hi

end Surroundings

end AnnotatedSql
