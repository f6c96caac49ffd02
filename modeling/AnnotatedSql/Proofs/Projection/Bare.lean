import AnnotatedSql.Proofs.Outcome
import AnnotatedSql.Proofs.Statement.Nested
import AnnotatedSql.Resolution

/-!
# Names of columns

A column goes by an alias at its end, or by the name of the one placeholder that it consists of, or
by what its expression is.
-/

namespace AnnotatedSql

/-! ## Bare placeholders -/

namespace Statement

/-- The tokens from `lo` to before `hi` are nothing but the placeholder at token `i`, with casts and
parentheses around it. -/
inductive Bare (s : Statement) : Nat → Nat → Nat → Prop
  | token {i : Nat} (param : s.isParam i = true) : Bare s i (i + 1) i
  | cast {lo hi cast i : Nat} {type : TypeName}
      (trailing : s.trailingCast? lo hi = some (cast, type)) (operand : Bare s lo cast i) :
      Bare s lo hi i
  | parens {lo hi closing i : Nat} (group : s.leadingGroup? lo hi = some closing)
      (whole : closing + 1 = hi) (inside : Bare s (lo + 1) closing i) : Bare s lo hi i

theorem name_of_isWord {s : Statement} {i : Nat} (word : s.isWord i = true) :
    ∃ name, s.name? i = some name := by
  unfold isWord at word
  unfold name?
  cases kind : s.kind? i with
  | none =>
    rw [kind] at word
    cases word
  | some found =>
    rw [kind] at word
    cases found with
    | ident => exact ⟨_, rfl⟩
    | quotedIdent => exact ⟨_, rfl⟩
    | _ => cases word

namespace Bare

variable {respell : Name → Name} {s t : Statement} {lo hi i : Nat}

theorem bounds (bare : s.Bare lo hi i) : lo ≤ i ∧ i < hi := by
  induction bare with
  | token _ => omega
  | cast trailing _ ih =>
    have := trailingCast_bounds trailing
    omega
  | parens _ _ _ ih => omega

/-- Such tokens begin with the placeholder or with a parenthesis. -/
theorem first (bare : s.Bare lo hi i) : s.isParam lo = true ∨ s.is lo .parenOpen = true := by
  induction bare with
  | token param => exact Or.inl param
  | cast _ _ ih => exact ih
  | parens group _ _ _ => exact Or.inr (leadingGroup_parts group).1

theorem not_isStar (bare : s.Bare lo hi i) : s.isStar lo hi = false := by
  have first := bare.first
  cases kind : s.kind? lo with
  | none => simp [isParam, is, kind] at first
  | some found => cases found <;> simp_all [isParam, is, isStar, TokenKind.isParam]

theorem starQualifier_eq_none (bare : s.Bare lo hi i) : s.starQualifier? lo hi = none := by
  have first := bare.first
  have nameless : s.name? lo = none := by
    cases kind : s.kind? lo with
    | none => simp [isParam, is, kind] at first
    | some found => cases found <;> simp_all [isParam, is, name?, TokenKind.isParam]
  rw [starQualifier?, nameless, ite_self]

theorem mirrored (mirrors : s.Mirrors respell t) (bare : s.Bare lo hi i) : t.Bare lo hi i := by
  induction bare with
  | token param => exact .token ((mirrors.isParam _).trans param)
  | cast trailing _ ih => exact .cast ((mirrors.trailingCast _ _).trans trailing) ih
  | parens group whole _ ih => exact .parens ((mirrors.leadingGroup _ _).trans group) whole ih

end Bare

end Statement

namespace Surroundings

variable {env : Surroundings}

theorem token_of_isParam {i : Nat} (param : env.statement.isParam i = true) :
    env.token i = env.placeholder i := by
  unfold Statement.isParam at param
  unfold token
  dsimp only
  cases kind : env.statement.kind? i with
  | none =>
    rw [kind] at param
    cases param
  | some found =>
    rw [kind] at param
    cases found <;> first | rfl | cases param

/-! ## Forms of expressions -/

section

variable {lo hi fuel : Nat}

theorem expressionWithin_of_token {i : Nat} :
    env.expressionWithin (fuel + 1) i (i + 1) = env.token i := by
  have uncast : env.statement.trailingCast? i (i + 1) = none := by
    simp [Statement.trailingCast?, Statement.lastCast?]
  unfold expressionWithin
  dsimp only
  rw [if_neg (by omega), uncast]
  exact if_pos (beq_self_eq_true _)

theorem expressionWithin_of_cast {cast : Nat} {type : TypeName}
    (trailing : env.statement.trailingCast? lo hi = some (cast, type)) :
    env.expressionWithin (fuel + 1) lo hi = env.cast type (env.expressionWithin fuel lo cast) := by
  have bounds := Statement.trailingCast_bounds trailing
  conv_lhs => unfold expressionWithin
  dsimp only
  rw [if_neg (by omega), trailing]

/-- Parentheses around everything stand for what they enclose. -/
theorem expressionWithin_of_group {closing : Nat} (nested : env.statement.Nested)
    (group : env.statement.leadingGroup? lo hi = some closing) (whole : closing + 1 = hi)
    (inside : lo < closing) :
    env.expressionWithin (fuel + 1) lo hi = env.expressionWithin fuel (lo + 1) closing := by
  have kind : env.statement.kind? lo = some .parenOpen :=
    eq_of_beq (Statement.leadingGroup_parts group).1
  have path : env.statement.columnPath? lo = none := by
    simp [Statement.columnPath?, Statement.name?, kind]
  have count : env.statement.isCount lo hi = false := by
    simp [Statement.isCount, Statement.isKeyword, Statement.is, kind]
  have fields : env.statement.fieldPath? hi env.statement.size (closing + 1) = some [] := by
    subst whole
    cases env.statement.size <;> simp [Statement.fieldPath?]
  conv_lhs => unfold expressionWithin
  dsimp only
  rw [if_neg (by omega), nested.trailingCast_of_group group whole]
  dsimp only
  rw [if_neg (by simp; omega), path, count, group]
  dsimp only [Option.filter_none]
  rw [if_neg (by simp), fields]
  exact bind_pure _

end

/-- Casts and parentheses around a placeholder that is understood keep its name. -/
theorem expressionWithin_of_bare {lo hi i fuel : Nat} {found : Expression}
    (nested : env.statement.Nested) (bare : env.statement.Bare lo hi i)
    (read : env.placeholder i = .ok found) (enough : hi ≤ lo + fuel) :
    (∃ type nullable, env.expressionWithin fuel lo hi = .ok ⟨found.name, type, nullable⟩) ∨
      ∃ finding, env.expressionWithin fuel lo hi = .error (.failed finding) := by
  induction bare generalizing fuel with
  | @token i param =>
    obtain ⟨fuel, rfl⟩ : ∃ less, fuel = less + 1 := ⟨fuel - 1, by omega⟩
    rw [expressionWithin_of_token, token_of_isParam param, read]
    exact Or.inl ⟨_, _, rfl⟩
  | @cast lo hi cast i type trailing operand ih =>
    have bounds := Statement.trailingCast_bounds trailing
    obtain ⟨fuel, rfl⟩ : ∃ less, fuel = less + 1 := ⟨fuel - 1, by omega⟩
    have shorter : cast ≤ lo + fuel := by omega
    rw [expressionWithin_of_cast trailing]
    unfold Surroundings.cast
    split
    · exact Or.inr ⟨_, rfl⟩
    · rcases ih read shorter with ⟨type, nullable, same⟩ | ⟨finding, same⟩
      · rw [same]
        exact Or.inl ⟨_, _, rfl⟩
      · rw [same]
        exact Or.inr ⟨_, rfl⟩
  | @parens lo hi closing i group whole inside ih =>
    have bounds := inside.bounds
    obtain ⟨fuel, rfl⟩ : ∃ less, fuel = less + 1 := ⟨fuel - 1, by omega⟩
    rw [expressionWithin_of_group nested group whole (by omega)]
    exact ih read (by omega)

end Surroundings

/-- The statement is a `SELECT`: that is the first verb outside parentheses. -/
structure Statement.IsSelect (s : Statement) (verb : Nat) : Prop where
  first : s.findTop? 0 s.size
    (s.isOneOf · ["select", "insert", "update", "delete", "values"]) = some verb
  select : s.isKeyword verb "select" = true

/-- A `SELECT` has a list of columns. -/
theorem Statement.IsSelect.projectionItems {s : Statement} {verb : Nat} (isSelect : s.IsSelect verb) :
    ∃ items, s.projectionItems? = some items := by
  simp [projectionItems?, projectionRange?, isSelect.first, isSelect.select]

/-! ## Names of items -/

/-- An item without an alias that is the placeholder at token `i`, known to have a type, and nothing
else. Its column is named after the parameter. -/
structure Surroundings.NamedAfter (env : Surroundings) (lo hi i : Nat) : Prop where
  unaliased : env.statement.hasAlias lo hi = false
  bare : env.statement.Bare lo hi i
  typed : ∃ found, env.placeholder i = .ok found

/-- An item with an alias: after `AS`, or at the end of an expression of no known form. -/
def Surroundings.Aliased (env : Surroundings) (lo hi : Nat) : Prop :=
  env.statement.hasAlias lo hi = true ∨
    env.statement.mayEndInAlias lo hi = true ∧ env.expression lo hi = .error .untyped

namespace Surroundings

variable {env : Surroundings}

/-- An expression that is a placeholder goes by its name, or something is wrong with a cast. -/
theorem NamedAfter.expression {lo hi i : Nat} {found : Expression} (nested : env.statement.Nested)
    (named : env.NamedAfter lo hi i) (read : env.placeholder i = .ok found) :
    (∃ type nullable, env.expression lo hi = .ok ⟨found.name, type, nullable⟩) ∨
      ∃ finding, env.expression lo hi = .error (.failed finding) := by
  have bounds := named.bare.bounds
  exact expressionWithin_of_bare nested named.bare read (by omega)

theorem NamedAfter.not_aliased {lo hi i : Nat} (nested : env.statement.Nested)
    (named : env.NamedAfter lo hi i) : ¬env.Aliased lo hi := by
  rintro (explicit | ⟨_, untyped⟩)
  · rw [named.unaliased] at explicit
    cases explicit
  · obtain ⟨found, read⟩ := named.typed
    rcases named.expression nested read with ⟨_, _, same⟩ | ⟨_, same⟩
    · rw [same] at untyped
      cases untyped
    · rw [same] at untyped
      cases untyped

/-- An alias is a word, so the item is no star. -/
theorem Aliased.word {lo hi : Nat} (aliased : env.Aliased lo hi) :
    (∃ name, env.statement.name? (hi - 1) = some name) ∧ env.statement.isStar lo hi = false ∧
      env.statement.starQualifier? lo hi = none := by
  have word : env.statement.isWord (hi - 1) = true := by
    rcases aliased with explicit | ⟨implicit, _⟩
    · simp only [Statement.hasAlias, Bool.and_eq_true] at explicit
      exact explicit.2
    · simp only [Statement.mayEndInAlias, Bool.and_eq_true] at implicit
      exact implicit.1.1.2
  obtain ⟨name, named⟩ := Statement.name_of_isWord word
  have noStar : env.statement.is (hi - 1) .star = false := by
    unfold Statement.isWord at word
    unfold Statement.is
    cases kind : env.statement.kind? (hi - 1) with
    | none => rfl
    | some found =>
      rw [kind] at word
      cases found <;> first | rfl | cases word
  refine ⟨⟨name, named⟩, ?_, ?_⟩
  · unfold Statement.isStar
    by_cases single : hi = lo + 1
    · rw [show lo = hi - 1 by omega, noStar, Bool.and_false]
    · simp [single]
  · unfold Statement.starQualifier?
    by_cases three : hi = lo + 3
    · rw [show lo + 2 = hi - 1 by omega, noStar]
      simp
    · simp [three]

/-- An item with an alias is the expression before it. -/
theorem single_of_aliased {lo hi : Nat} (aliased : env.Aliased lo hi) :
    env.single lo hi =
      env.aliased lo (if env.statement.hasAlias lo hi then hi - 2 else hi - 1) (hi - 1) := by
  unfold single
  dsimp only
  split
  · rfl
  next implicit =>
    rcases aliased with explicit | ⟨mayEnd, untyped⟩
    · exact absurd explicit implicit
    · rw [untyped]
      exact if_pos mayEnd

/-- An item without an alias is an expression. -/
theorem single_of_not_aliased {lo hi : Nat} (unaliased : ¬env.Aliased lo hi) :
    env.single lo hi = env.expression lo hi := by
  unfold single
  dsimp only
  rw [if_neg fun explicit => unaliased (Or.inl explicit)]
  split
  next untyped =>
    rw [if_neg fun mayEnd => unaliased (Or.inr ⟨mayEnd, untyped⟩), untyped]
  · rfl

/-! ## Items -/

/-- What a star gives. -/
theorem item_of_star {lo hi : Nat} (star : env.statement.isStar lo hi = true) : env.item lo hi =
    .ok ((env.scope.statementEntries.flatMap ScopeEntry.columns).map .ofFound) := by
  unfold item
  dsimp only
  rw [if_pos star]

/-- What a star with a qualifier gives. -/
theorem item_of_starQualifier {lo hi : Nat} {qualifier : Name}
    (star : env.statement.starQualifier? lo hi = some qualifier) : env.item lo hi =
      match env.scope.statementEntries.find? (·.answersTo qualifier) with
      | some entry => .ok (entry.columns.map .ofFound)
      | none => .error ⟨.unknownRelation qualifier.text, .token lo⟩ := by
  have noStar : env.statement.isStar lo hi = false := by
    obtain ⟨rfl, _⟩ := Statement.starQualifier_parts star
    simp [Statement.isStar]
  cases found : env.scope.statementEntries.find? (·.answersTo qualifier) <;>
    simp [item, noStar, star, found]

/-- What an item is that is neither a star nor qualified by one. -/
theorem item_of_single {lo hi : Nat} (noStar : env.statement.isStar lo hi = false)
    (unqualified : env.statement.starQualifier? lo hi = none) :
    env.item lo hi = match env.single lo hi with
      | .ok expression => .ok [⟨expression.name, expression.type, expression.nullable⟩]
      | .error (.failed finding) => .error finding
      | .error .untyped => .error ⟨.untypedExpression, .tokens lo hi⟩ := by
  unfold item
  dsimp only
  rw [noStar, unqualified]
  rfl

/-! ## Projections -/

/-- What is wrong with an item, if anything is. -/
def fault? (env : Surroundings) (item : Nat × Nat) : Option Finding :=
  match env.item item.1 item.2 with
  | .error finding => some finding
  | .ok _ => none

theorem project_items {items : List (Nat × Nat)}
    (listed : env.statement.projectionItems? = some items) :
    project env = ⟨if (items.filterMap env.fault?).isEmpty then
        some (.rows ((items.map fun (lo, hi) => env.item lo hi).filterMap Except.toOption).flatten)
      else none, items.filterMap env.fault?⟩ := by
  unfold project
  rw [listed]
  dsimp only
  rw [List.filterMap_map]
  rfl

/-- The only item gives all columns. -/
theorem project_item {lo hi : Nat} {columns : List ResultColumn}
    (alone : env.statement.projectionItems? = some [(lo, hi)])
    (gives : env.item lo hi = .ok columns) : project env = ⟨some (.rows columns), []⟩ := by
  have sound : [(lo, hi)].filterMap env.fault? = [] := by simp [fault?, gives]
  rw [project_items alone, sound]
  simp [gives, Except.toOption]

/-- A list with a result gives the columns of its items, one after another. -/
theorem project_rows {items : List (Nat × Nat)} {result : QueryResult}
    (listed : env.statement.projectionItems? = some items)
    (projected : (project env).value = some result) : ∃ columns : Nat × Nat → List ResultColumn,
      (∀ item ∈ items, env.item item.1 item.2 = .ok (columns item)) ∧
        result = .rows (items.flatMap columns) := by
  rw [project_items listed] at projected
  dsimp only at projected
  split at projected
  next clean =>
    have sound : ∀ item ∈ items, env.fault? item = none :=
      List.filterMap_eq_nil_iff.mp (List.isEmpty_iff.mp clean)
    have gives : ∀ item ∈ items,
        env.item item.1 item.2 = .ok ((env.item item.1 item.2).toOption.getD []) := by
      intro item member
      have sound := sound item member
      unfold fault? at sound
      cases outcome : env.item item.1 item.2 with
      | ok columns => rfl
      | error finding =>
        rw [outcome] at sound
        cases sound
    refine ⟨_, gives, ?_⟩
    rw [← Option.some.inj projected, List.map_congr_left gives, List.filterMap_map, List.flatMap]
    congr 2
    exact congrFun List.filterMap_eq_map items
  · cases projected

/-- A projection with a result has no findings. -/
theorem project_findings {result : QueryResult} (projected : (project env).value = some result) :
    (project env).findings = [] := by
  cases listed : env.statement.projectionItems? with
  | none =>
    unfold project
    rw [listed]
  | some items =>
    rw [project_items listed] at projected ⊢
    dsimp only at projected ⊢
    split at projected
    next clean => exact List.isEmpty_iff.mp clean
    next => cases projected

end Surroundings

end AnnotatedSql
