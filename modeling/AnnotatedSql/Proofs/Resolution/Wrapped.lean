import AnnotatedSql.Proofs.Parameter.Embedded
import AnnotatedSql.Proofs.Resolution.Asked
import AnnotatedSql.Proofs.Resolution.Embedded

/-!
# Scopes and types of queries in parentheses

Parentheses around a query bring nothing into scope, so that the scope is that of the query, and
what stands around a placeholder asks for the same type.
-/

namespace AnnotatedSql

variable {n : Nat} {s t : Statement} {schema : Schema} {scope : Scope}

/-! ## Scopes -/

theorem Statement.scopeStepsAt_of_not_word {i : Nat} (noWord : s.isWord i = false) :
    s.scopeStepsAt i = [] := by
  simp [scopeStepsAt, isKeyword_of_not_word noWord]

theorem Statement.WrappedIn.scopeSteps (wrapped : s.WrappedIn n t) :
    t.scopeSteps = s.scopeSteps.map (ScopeStep.moved n (t.level n).head?) := by
  have none_ : ∀ {list : List Nat}, (∀ i ∈ list, i < n ∨ s.size + n ≤ i) →
      list.flatMap t.scopeStepsAt = [] := fun outside =>
    List.flatMap_eq_nil_iff.mpr fun i member =>
      scopeStepsAt_of_not_word (wrapped.around (outside i member)).1
  rw [wrapped.toEmbeds.scopeSteps, none_ fun i member => Or.inl (List.mem_range.mp member),
    none_ fun i member => Or.inr (List.mem_range'_1.mp member).1, List.nil_append, List.append_nil]

/-- The scope is that of the query, or what is wrong with it is of the same kind. -/
theorem Scope.ofStatement_wrapped (wrapped : s.WrappedIn n t) (schema : Schema) :
    mapBoth Finding.kind id (ofStatement schema t) =
      mapBoth Finding.kind (Scope.moved n (t.level n).head?) (ofStatement schema s) := by
  unfold ofStatement
  rw [wrapped.scopeSteps]
  exact foldlM_moved wrapped.toEmbeds schema

/-- The rows of an insertion belong to the statement. -/
theorem Scope.ofStatement_rows (levelled : s.Levelled) (built : ofStatement schema s = .ok scope) :
    ∀ target ∈ scope.insert, ∀ row ∈ target.rows, row.2 < s.size := by
  refine foldlM_keeps (fun scope => ∀ target ∈ scope.insert, ∀ row ∈ target.rows, row.2 < s.size)
    (fun before after action listed known stepped => ?_) (by simp) built
  have inside := levelled.scopeSteps_inside listed
  cases Scope.step_effect stepped with
  | target _ _ _ =>
    rintro target ⟨⟩
    exact inside.2.2
  | _ => exact known

/-! ## Types -/

namespace Typing

variable (wrapped : s.WrappedIn n t) {i lo hi : Nat}

include wrapped

theorem columnType_wrapped (inside : i < s.size) (name : ColumnName) (lo hi lo' hi' : Nat) :
    mapBoth Finding.kind id (columnType t (scope.moved n (t.level n).head?) (i + n) name lo' hi') =
      mapBoth Finding.kind id (columnType s scope i name lo hi) := by
  unfold columnType
  rw [Scope.lookup_moved wrapped.toEmbeds inside]
  cases scope.lookup s i name with
  | ok found => rfl
  | error fault => cases fault <;> rfl

theorem typeEndingAt_wrapped (inside : i < s.size) :
    kinds (typeEndingAt t (scope.moved n (t.level n).head?) (i + n)) =
      kinds (typeEndingAt s scope i) := by
  unfold typeEndingAt kinds
  rw [wrapped.columnEndingAt inside]
  cases s.columnEndingAt? i with
  | none => rfl
  | some found => exact congrArg some (columnType_wrapped wrapped inside ..)

theorem rangeColumn_wrapped (later : 0 < i) (inside : i ≤ s.size) :
    kinds (rangeColumn t (scope.moved n (t.level n).head?) (i + n)) =
      kinds (rangeColumn s scope i) := by
  unfold rangeColumn
  rw [wrapped.beforeNot later inside]
  cases found : s.beforeNot? i with
  | none => rfl
  | some last =>
    have before := Statement.WrappedIn.beforeNot_lt found
    exact typeEndingAt_wrapped wrapped (Nat.lt_of_lt_of_le before inside)

theorem rowCount_wrapped (operand : s.IsOperand lo hi) : rowCount t (lo + n) = rowCount s lo := by
  have later := operand.later
  unfold rowCount
  rw [show lo + n - 1 = lo - 1 + n by omega,
    wrapped.isOneOf_inside (Nat.lt_of_le_of_lt (Nat.sub_le lo 1) operand.begins.1)]
  simp [later, Nat.add_pos_left later]

theorem comparedAfter_wrapped (operand : s.IsOperand lo hi) :
    kinds (comparedAfter t (scope.moved n (t.level n).head?) (lo + n)) =
      kinds (comparedAfter s scope lo) := by
  have later := operand.later
  have begins := operand.begins.1
  unfold comparedAfter
  rw [show lo + n - 1 = lo - 1 + n by omega, wrapped.isComparison (by omega)]
  rcases Nat.lt_or_ge lo 2 with first | further
  · obtain rfl : lo = 1 := by omega
    simp [wrapped.isComparison_first]
  · have last : (if (decide (0 < lo + n - 2) && t.isKeyword (lo + n - 2) "not") = true then lo + n - 3
        else lo + n - 2) =
        (if (decide (0 < lo - 2) && s.isKeyword (lo - 2) "not") = true then lo - 3 else lo - 2) + n := by
      have word : (decide (0 < lo + n - 2) && t.isKeyword (lo + n - 2) "not") =
          (decide (0 < lo - 2) && s.isKeyword (lo - 2) "not") := by
        rw [show lo + n - 2 = lo - 2 + n by omega, wrapped.isKeyword_inside (by omega)]
        cases found : s.isKeyword (lo - 2) "not" with
        | false => simp
        | true =>
          have := wrapped.later_of_keyword found (by simp [foldCase_eq_ofList])
          simp [this, Nat.add_pos_left this]
      rw [word]
      split
      next found =>
        have : 0 < lo - 2 := by simpa using (Bool.and_eq_true_iff.mp found).1
        omega
      · omega
    dsimp only
    rw [last]
    simp only [further, Nat.le_add_right_of_le further, decide_true, Bool.true_and]
    exact kinds_ite (typeEndingAt_wrapped wrapped (by split <;> omega))

theorem comparedBefore_wrapped (operand : s.IsOperand lo hi) :
    kinds (comparedBefore t (scope.moved n (t.level n).head?) (hi + n)) =
      kinds (comparedBefore s scope hi) := by
  have inside := operand.inside
  unfold comparedBefore
  dsimp only
  have op : (if t.isKeyword (hi + n + 1) "not" then hi + n + 2 else hi + n + 1) =
      (if s.isKeyword (hi + 1) "not" then hi + 2 else hi + 1) + n := by
    rw [Nat.add_right_comm, wrapped.isKeyword (Nat.succ_le_of_lt inside) (by simp [foldCase_eq_ofList])]
    split <;> omega
  have bound : (if s.isKeyword (hi + 1) "not" then hi + 2 else hi + 1) ≤ s.size := by
    split
    next word => exact Statement.lt_size_of_keyword word
    · exact inside
  rw [op]
  generalize (if s.isKeyword (hi + 1) "not" then hi + 2 else hi + 1) = op at bound ⊢
  rw [wrapped.isComparison bound]
  cases compares : s.isComparison op with
  | false => rfl
  | true =>
    have before := Statement.WrappedIn.lt_size_of_comparison compares
    rw [if_pos rfl, if_pos rfl, Nat.add_right_comm, wrapped.columnAt before]
    cases read : s.columnAt? (op + 1) with
    | none => rfl
    | some found =>
      exact congrArg some (columnType_wrapped wrapped
        (Nat.lt_of_lt_of_le (Statement.columnAt_bounds read).1 (Statement.columnAt_bounds read).2) ..)

theorem lowerBound_wrapped (operand : s.IsOperand lo hi) :
    kinds (lowerBound t (scope.moved n (t.level n).head?) (lo + n)) =
      kinds (lowerBound s scope lo) := by
  have later := operand.later
  have begins := operand.begins.1
  unfold lowerBound
  rw [show lo + n - 1 = lo - 1 + n by omega, wrapped.isKeyword_inside (by omega)]
  cases word : s.isKeyword (lo - 1) "between" with
  | false => simp
  | true =>
    have first := wrapped.later_of_keyword word (by simp [foldCase_eq_ofList])
    have further : 2 ≤ lo := by omega
    simp only [further, Nat.le_add_right_of_le further, decide_true, Bool.true_and, if_true]
    exact rangeColumn_wrapped wrapped first (by omega)

theorem upperBound_wrapped (operand : s.IsOperand lo hi) :
    kinds (upperBound t (scope.moved n (t.level n).head?) (lo + n)) =
      kinds (upperBound s scope lo) := by
  have later := operand.later
  have begins := operand.begins.1
  unfold upperBound
  dsimp only
  rw [show lo + n - 1 = lo - 1 + n by omega, wrapped.isKeyword_inside (by omega)]
  cases word : s.isKeyword (lo - 1) "and" with
  | false => simp
  | true =>
    have first := wrapped.later_of_keyword word (by simp [foldCase_eq_ofList])
    have bound := Statement.WrappedIn.clauseKeywordBefore_le (s := s) (i := lo - 2)
    rw [show lo + n - 2 = lo - 2 + n by omega, wrapped.clauseKeywordBefore (by omega)]
    generalize s.clauseKeywordBefore (lo - 2) = clause at bound
    rw [wrapped.isKeyword_inside (by omega)]
    cases between : s.isKeyword clause "between" with
    | false => simp
    | true =>
      have later := wrapped.later_of_keyword between (by simp [foldCase_eq_ofList])
      have further : 3 ≤ lo := by omega
      simp only [further, Nat.le_add_right_of_le further, decide_true, Bool.true_and, if_true]
      exact rangeColumn_wrapped wrapped later (by omega)

theorem listMember_wrapped (operand : s.IsOperand lo hi) :
    kinds (listMember t (scope.moved n (t.level n).head?) (lo + n) (hi + n)) =
      kinds (listMember s scope lo hi) := by
  have later := operand.later
  have begins := operand.begins.1
  have around := (wrapped.inner.enclosers_of_level operand.begins).2
  unfold listMember
  dsimp only
  rw [wrapped.enclosing begins]
  cases level : s.enclosing lo with
  | none =>
    cases outer : (t.level n).head? with
    | none => rfl
    | some opening =>
      -- before the parenthesis around the query stands no word
      have before := Statement.level_head_lt opening outer
      have noWord := (wrapped.around (Or.inl (Nat.lt_of_le_of_lt (Nat.sub_le opening 1) before))).1
      simp [movedContext, Statement.isKeyword_of_not_word noWord]
  | some opening =>
    rw [level] at around
    have open_ := List.mem_of_mem_head? around.symm
    have inside := Nat.lt_trans (Statement.level_mem open_).1 begins
    have first := wrapped.later_of_is (Statement.level_mem open_).2 (by simp)
    -- the operand ends within the parentheses
    have ends : hi + 1 < s.size := by
      refine Nat.lt_of_le_of_ne operand.inside fun last => ?_
      have closed := operand.level
      rw [last, wrapped.closed] at closed
      rw [← closed] at open_
      cases open_
    have moved : movedContext n (t.level n).head? (some opening) = some (opening + n) := rfl
    rw [moved]
    dsimp only
    have before : opening - 1 < s.size := Nat.lt_of_le_of_lt (Nat.sub_le opening 1) inside
    have earlier : lo - 1 < s.size := Nat.lt_of_le_of_lt (Nat.sub_le lo 1) begins
    rw [show lo + n - 1 = lo - 1 + n by omega, Nat.add_right_comm hi n 1,
      show opening + n - 1 = opening - 1 + n by omega, wrapped.is_inside earlier,
      wrapped.is_inside earlier, wrapped.is_inside ends, wrapped.is_inside ends,
      wrapped.isKeyword_inside before]
    simp only [later, first, Nat.add_pos_left later, Nat.add_pos_left first]
    cases word : s.isKeyword (opening - 1) "in" with
    | false => simp
    | true =>
      have after := wrapped.later_of_keyword word (by simp [foldCase_eq_ofList])
      exact kinds_ite (rangeColumn_wrapped wrapped after (Nat.le_of_lt before))

/-- An item of a row, moved, is that of the row moved. -/
theorem valueIndex_wrapped {row : Nat × Nat} (inside : row.2 < s.size) (lo hi : Nat) :
    valueIndex? t (lo + n) (hi + n) (movedRange n row) = valueIndex? s lo hi row := by
  have length : row.1 + n + 1 = row.1 + 1 + n := Nat.add_right_comm ..
  have same : ((fun item => item == (lo + n, hi + n + 1)) ∘ movedRange n) =
      fun item => item == (lo, hi + 1) := by
    funext item
    rw [Function.comp_apply, Bool.eq_iff_iff, beq_iff_eq, beq_iff_eq, Nat.add_right_comm]
    exact ⟨fun equal => Prod.ext (Nat.add_right_cancel (congrArg Prod.fst equal))
      (Nat.add_right_cancel (congrArg Prod.snd equal)), fun equal => by rw [equal]; rfl⟩
  unfold valueIndex?
  dsimp only [movedRange, Prod.map]
  rw [length, wrapped.splitCommas (Nat.le_of_lt inside), List.findIdx?_map, same]
  simp only [Nat.add_lt_add_iff_right]

theorem insertedValue_wrapped (rows : ∀ target ∈ scope.insert, ∀ row ∈ target.rows, row.2 < s.size)
    (lo hi : Nat) : insertedValue t (scope.moved n (t.level n).head?) (lo + n) (hi + n) =
      insertedValue s scope lo hi := by
  unfold insertedValue Scope.moved
  cases insert : scope.insert with
  | none => rfl
  | some target =>
    have index : (target.rows.map (movedRange n)).findSome? (valueIndex? t (lo + n) (hi + n)) =
        target.rows.findSome? (valueIndex? s lo hi) := by
      rw [List.findSome?_map, ← List.head?_filterMap, ← List.head?_filterMap]
      refine congrArg List.head? (List.filterMap_congr fun row member => ?_)
      exact valueIndex_wrapped wrapped (rows target insert row member) lo hi
    dsimp only [Option.map_some, Option.bind_eq_bind, Option.bind_some, InsertTarget.moved]
    rw [index]

/-- What stands around a placeholder asks for the same type. -/
theorem contextType_wrapped (rows : ∀ target ∈ scope.insert, ∀ row ∈ target.rows, row.2 < s.size)
    (param : s.isParam i = true) :
    kinds (contextType t (scope.moved n (t.level n).head?) (i + n)) =
      kinds (contextType s scope i) := by
  obtain ⟨moved, operand⟩ := wrapped.operand param
  unfold contextType
  rw [moved]
  refine kinds_orElse (congrArg kinds (rowCount_wrapped wrapped operand)) <| kinds_orElse ?_ <|
    kinds_orElse ?_ <| kinds_orElse ?_ <| kinds_orElse ?_ <| kinds_orElse ?_ ?_
  · exact comparedAfter_wrapped wrapped operand
  · exact comparedBefore_wrapped wrapped operand
  · exact lowerBound_wrapped wrapped operand
  · exact upperBound_wrapped wrapped operand
  · exact listMember_wrapped wrapped operand
  · exact congrArg kinds (insertedValue_wrapped wrapped rows _ _)

theorem asksAlike_wrapped (rows : ∀ target ∈ scope.insert, ∀ row ∈ target.rows, row.2 < s.size) :
    AsksAlike (· + n) id s scope t (scope.moved n (t.level n).head?) where
  placeholders := wrapped.placeholders
  injective _ _ _ _ := id
  context stands := contextType_wrapped wrapped rows (Statement.isParam_of_paramKey stands)

end Typing

/-! ## Parameters -/

/-- The statement binds its parameters, it has a scope, and all of them have types there. -/
def Statement.TypesParameters (schema : Schema) (style : BindingStyle) (s : Statement)
    (typed : List Parameter) : Prop :=
  Binding.Accepts style s ∧ ∃ scope, Scope.ofStatement schema s = .ok scope ∧
    (typeParameters schema s scope (Binding.table style s)).1 = typed ∧
    Findings.hasErrors (typeParameters schema s scope (Binding.table style s)).2 = false

variable {style : BindingStyle}

/-- A statement in parentheses types its parameters exactly if the query does. -/
theorem Statement.WrappedIn.typesParameters_iff (wrapped : s.WrappedIn n t) {typed : List Parameter} :
    t.TypesParameters schema style typed ↔
      ∃ inner, s.TypesParameters schema style inner ∧ typed = inner.map (Parameter.moved n) := by
  have scopes := Scope.ofStatement_wrapped wrapped schema
  have types : ∀ {scope}, Binding.Accepts style s → Scope.ofStatement schema s = .ok scope →
      (typeParameters schema t (scope.moved n (t.level n).head?) (Binding.table style t)).1 =
          (typeParameters schema s scope (Binding.table style s)).1.map (Parameter.moved n) ∧
        Findings.hasErrors
            (typeParameters schema t (scope.moved n (t.level n).head?) (Binding.table style t)).2 =
          Findings.hasErrors (typeParameters schema s scope (Binding.table style s)).2 := by
    intro scope accepts built
    have changes : ChangesKeys id (Parameter.moved n) s (Binding.table style s) := by
      refine ⟨fun p member => ?_, fun _ _ => rfl, fun p => ?_, fun _ _ => rfl⟩
      · rw [← accepts.mem_orderedKeys, ← Binding.table_keys]
        exact List.mem_map_of_mem member
      · rw [Parameter.moved, Option.map_map]
        rfl
    rw [Binding.table_wrapped wrapped]
    obtain ⟨same, kinds⟩ := typeParameters_alike
      (Typing.asksAlike_wrapped wrapped (Scope.ofStatement_rows wrapped.inner built)) changes
    exact ⟨same, Findings.hasErrors_of_kinds kinds⟩
  unfold TypesParameters
  rw [Binding.accepts_wrapped wrapped]
  constructor
  · rintro ⟨accepts, outer, builtToo, rfl, harmless⟩
    cases built : Scope.ofStatement schema s with
    | error finding =>
      rw [built, builtToo] at scopes
      cases scopes
    | ok scope =>
      rw [built, builtToo] at scopes
      obtain rfl : outer = scope.moved n (t.level n).head? := Except.ok.inj scopes
      obtain ⟨same, errors⟩ := types accepts built
      exact ⟨_, ⟨accepts, scope, rfl, rfl, errors.symm.trans harmless⟩, same⟩
  · rintro ⟨inner, ⟨accepts, scope, built, rfl, harmless⟩, rfl⟩
    obtain ⟨same, errors⟩ := types accepts built
    rw [built] at scopes
    cases builtToo : Scope.ofStatement schema t with
    | error finding =>
      rw [builtToo] at scopes
      cases scopes
    | ok outer =>
      rw [builtToo] at scopes
      obtain rfl : outer = scope.moved n (t.level n).head? := Except.ok.inj scopes
      exact ⟨accepts, _, rfl, same, errors.trans harmless⟩

/-- A resolved statement types its parameters. -/
theorem typesParameters_of_resolve {resolution : Resolution}
    (resolves : (resolve schema style s).value = some resolution) :
    s.TypesParameters schema style resolution.parameters := by
  obtain ⟨accepts, scope, built, inScope⟩ := resolve_success resolves
  obtain ⟨harmless, parameters, _⟩ := resolveIn_success inScope
  unfold Findings.hasErrors at harmless
  rw [List.any_append, Bool.or_eq_false_iff] at harmless
  exact ⟨accepts, scope, built, parameters.symm, harmless.1⟩

/-- A statement that types its parameters and has no list of columns is resolved. -/
theorem Statement.TypesParameters.resolve {typed : List Parameter}
    (types : s.TypesParameters schema style typed) (noList : s.projectionItems? = none) :
    (AnnotatedSql.resolve schema style s).value = some ⟨typed, .execute⟩ := by
  obtain ⟨accepts, scope, built, rfl, harmless⟩ := types
  have projected : project ⟨schema, s, scope,
      (typeParameters schema s scope (Binding.table style s)).1⟩ = ⟨some .execute, []⟩ := by
    unfold project
    rw [noList]
  rw [resolve_of_scope (Binding.bind_value_iff.mpr ⟨accepts, rfl⟩) built]
  unfold resolveIn
  dsimp only
  rw [projected, List.append_nil, harmless]
  rfl

end AnnotatedSql
