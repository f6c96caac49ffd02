import AnnotatedSql.Proofs.Checked.Binding
import AnnotatedSql.Proofs.Checked.Scope

/-!
# Looking back from a placeholder

What a placeholder stands beside is found by going back from it: over an operator, a `NOT` and the
parts of a column name, or out of a list. Each step back is taken only where there is a token to go
to.
-/

namespace AnnotatedSql

namespace Checked

/-- The first of two operations that gives something; the second only runs if the first gives
nothing. -/
def orElse {α : Type} (first second : Checked (Option α)) : Checked (Option α) := do
  match ← first with
  | some found => pure (some found)
  | none => second

/-! ## Column references -/

/-- The column at token `last` with the qualifier before it, and the token they start at. -/
def qualified? (s : Statement) (last : Nat) (column : Name) :
    Checked (Option (ColumnName × Nat)) := do
  let dotted ← both (decide (2 ≤ last)) do
    let dot ← sub last 1
    pure (s.is dot .dot)
  if dotted then do
    let first ← sub last 2
    pure ((s.name? first).map fun qualifier => (⟨some qualifier, column⟩, first))
  else pure (some (⟨none, column⟩, last))

/-- Whether what starts at token `start` goes on a path or a cast. -/
def goesOn (s : Statement) (start : Nat) : Checked Bool :=
  both (decide (0 < start)) do
    let before ← sub start 1
    pure (s.is before .dot || s.is before .doubleColon)

/-- The column reference that ends at token `last`, and the token it starts at. -/
def columnEndingAt? (s : Statement) (last : Nat) : Checked (Option (ColumnName × Nat)) :=
  match s.name? last with
  | none => pure none
  | some column =>
    if s.isClauseKeyword last then pure none
    else do
      match ← qualified? s last column with
      | none => pure none
      | some (name, start) => do
        let part ← goesOn s start
        pure (if part then none else some (name, start))

/-- The type of the column named at token `i`. The name's tokens run from `lo` to before `hi`. -/
def columnType (s : Statement) (scope : Scope) (i : Nat) (name : ColumnName) (lo hi : Nat) :
    Checked Expectation := do
  let place ← tokens s lo hi
  match ← lookup scope s i name with
  | .ok found => pure (.ok found.column.type)
  | .error fault => pure (.error ⟨fault.cause name, place⟩)

/-- The type of the column reference that ends at token `last`. -/
def typeEndingAt (s : Statement) (scope : Scope) (last : Nat) : Checked (Option Expectation) := do
  match ← columnEndingAt? s last with
  | none => pure none
  | some (name, start) => do
    let type ← columnType s scope last name start (last + 1)
    pure (some type)

/-! ## Operands -/

/-- The type of the cast at token `i`. -/
def castAt? (s : Statement) (i : Nat) : Checked (Option TypeName) :=
  if s.is i .doubleColon then typeName? s (i + 1) else pure none

/-- The tokens of the `CAST` around the placeholder at token `i`, or of the placeholder alone. -/
def castOperand (s : Statement) (i : Nat) : Checked (Nat × Nat) := do
  let wrapped ← both (decide (2 ≤ i)) do
    let opening ← sub i 1
    let word ← sub i 2
    pure (s.is opening .parenOpen && s.isKeyword word "cast")
  if wrapped then do
    let opening ← sub i 1
    let word ← sub i 2
    pure (match s.partner opening with
      | some closing => (word, closing)
      | none => (i, i))
  else pure (i, i)

/-- The first and last token of the operand that a placeholder forms with its cast. -/
def operand (s : Statement) (i : Nat) : Checked (Nat × Nat) := do
  let (lo, hi) ← unwrapParens s i i
  match ← castAt? s (hi + 1) with
  | some type => do
    let last ← sub type.hi 1
    pure (lo, last)
  | none => castOperand s i

/-! ## Contexts -/

/-- `LIMIT :x` and `OFFSET :x` -/
def rowCount (s : Statement) (lo : Nat) : Checked (Option Expectation) := do
  let counts ← both (decide (0 < lo)) do
    let word ← sub lo 1
    pure (s.isOneOf word ["limit", "offset"])
  pure (if counts then some (.ok (.scalar .int8)) else none)

/-- The token `last`, or the one before a `NOT` there. -/
def skipNot (s : Statement) (last : Nat) : Checked Nat :=
  if 0 < last && s.isKeyword last "not" then sub last 1 else pure last

/-- `column op :x` -/
def comparedAfter (s : Statement) (scope : Scope) (lo : Nat) : Checked (Option Expectation) := do
  let compared ← both (decide (2 ≤ lo)) do
    let op ← sub lo 1
    pure (s.isComparison op)
  if compared then do
    let last ← sub lo 2
    let last ← skipNot s last
    typeEndingAt s scope last
  else pure none

/-- `:x op column` -/
def comparedBefore (s : Statement) (scope : Scope) (hi : Nat) : Checked (Option Expectation) :=
  let op := if s.isKeyword (hi + 1) "not" then hi + 2 else hi + 1
  if s.isComparison op then
    match s.columnAt? (op + 1) with
    | none => pure none
    | some (name, next) => do
      let type ← columnType s scope (op + 1) name (op + 1) next
      pure (some type)
  else pure none

/-- The column before token `i`, or before a `NOT` there. -/
def columnBefore (s : Statement) (scope : Scope) (i : Nat) : Checked (Option Expectation) :=
  match s.beforeNot? i with
  | none => pure none
  | some last => typeEndingAt s scope last

/-- `column BETWEEN :x` -/
def lowerBound (s : Statement) (scope : Scope) (lo : Nat) : Checked (Option Expectation) := do
  let bounded ← both (decide (2 ≤ lo)) do
    let word ← sub lo 1
    pure (s.isKeyword word "between")
  if bounded then do
    let keyword ← sub lo 1
    columnBefore s scope keyword
  else pure none

/-- The clause keyword at or before token `i`, at most `fuel` tokens away. -/
def clauseKeywordBefore (s : Statement) : Nat → Nat → Checked Nat
  | 0, i => pure i
  | fuel + 1, i =>
    if 0 < i && !s.isClauseKeyword i then do
      let before ← sub i 1
      clauseKeywordBefore s fuel before
    else pure i

/-- `column BETWEEN … AND :x` -/
def upperBound (s : Statement) (scope : Scope) (lo : Nat) : Checked (Option Expectation) := do
  let bounded ← both (decide (3 ≤ lo)) do
    let word ← sub lo 1
    pure (s.isKeyword word "and")
  if bounded then do
    let last ← sub lo 2
    let keyword ← clauseKeywordBefore s last last
    if s.isKeyword keyword "between" then columnBefore s scope keyword else pure none
  else pure none

/-- Whether the tokens `lo` to `hi` are an item of a list. -/
def isItem (s : Statement) (lo hi : Nat) : Checked Bool := do
  let begins ← both (decide (0 < lo)) do
    let before ← sub lo 1
    pure (s.is before .parenOpen || s.is before .comma)
  pure (begins && (s.is (hi + 1) .parenClose || s.is (hi + 1) .comma))

/-- `column IN (…, :x, …)` -/
def listMember (s : Statement) (scope : Scope) (lo hi : Nat) : Checked (Option Expectation) := do
  let item ← isItem s lo hi
  match s.enclosing lo with
  | none => pure none
  | some opening => do
    let listed ← both item (isAfter s opening "in")
    if listed then do
      let keyword ← sub opening 1
      columnBefore s scope keyword
    else pure none

/-- The type that the surroundings of the placeholder at token `i` ask for, if any. -/
def contextType (s : Statement) (scope : Scope) (i : Nat) : Checked (Option Expectation) := do
  let (lo, hi) ← operand s i
  let _ ← token s i
  orElse (rowCount s lo) <| orElse (comparedAfter s scope lo) <|
    orElse (comparedBefore s scope hi) <| orElse (lowerBound s scope lo) <|
    orElse (upperBound s scope lo) <| orElse (listMember s scope lo hi) <|
    pure (Typing.insertedValue s scope lo hi)

/-! ## Parameters -/

/-- The use of a key by the placeholder at token `i`, if it asks for a type. -/
def use? (s : Statement) (scope : Scope) (i : Nat) (key : ParamKey) :
    Checked (Option Typing.Use) := do
  let expectation ← contextType s scope i
  pure (expectation.map (⟨i, key, ·⟩))

/-- The uses of the parameters that are not cast, in order. -/
def uses (s : Statement) (scope : Scope) (parameters : List Parameter) :
    Checked (List Typing.Use) := do
  let hinted (key : ParamKey) := parameters.any fun p => p.key == key && p.hint.isSome
  let found ← (s.placeholders.filter fun item => !hinted item.2).mapM fun item =>
    use? s scope item.1 item.2
  pure (found.filterMap id)

/-- The type of a parameter whose uses ask for the given types. -/
def typeOf (schema : Schema) (parameter : Parameter) (asked : List (Nat × DataType)) :
    Checked Expectation :=
  match parameter.hint with
  | some hint =>
    pure (match schema.typeNamed? hint.text with
      | some type => .ok type
      | none => .error ⟨.unknownType hint.text, hint.place⟩)
  | none =>
    if asked.isEmpty then do
      let first ← get parameter.occurrences 0
      pure (.error ⟨.untypedParameter parameter.key, .token first⟩)
    else do
      let first ← get asked 0
      pure (match asked.find? fun other => other.2 != first.2 with
        | none => .ok first.2
        | some other =>
          .error ⟨.ambiguousParameter parameter.key first.2.display other.2.display
            (.token first.1), .token other.1⟩)

/-- Types the parameters of a statement. -/
def typeParameters (schema : Schema) (s : Statement) (scope : Scope)
    (parameters : List Parameter) : Checked (List Parameter × List Finding) := do
  let uses ← uses s scope parameters
  let types ← parameters.mapM fun p => typeOf schema p (Typing.askedTypes uses p.key)
  let typed := parameters.zip types
  pure (typed.map fun item => Typing.assign item.1 item.2,
    uses.filterMap (fun use => Typing.finding? use.expectation) ++
      types.filterMap Typing.finding?)

/-! ## No trap is met -/

theorem orElse_eq {α : Type} {first second : Checked (Option α)} {a b : Option α}
    (firstPasses : first = pure a) (secondPasses : second = pure b) :
    orElse first second = pure (a <|> b) := by
  rw [orElse, firstPasses, secondPasses, pure_bind]
  cases a <;> rfl

section

variable {s : Statement} {scope : Scope} {i lo hi last : Nat}

theorem qualified_eq (column : Name) :
    qualified? s last column = pure (if 2 ≤ last && s.is (last - 1) .dot then
      (s.name? (last - 2)).map fun qualifier => (⟨some qualifier, column⟩, last - 2)
      else some (⟨none, column⟩, last)) := by
  unfold qualified?
  rw [both_two last (s.is · .dot), pure_bind]
  split
  next dotted =>
    rw [Bool.and_eq_true, decide_eq_true_iff] at dotted
    rw [sub_eq dotted.1, pure_bind]
  · rfl

theorem goesOn_eq : goesOn s i =
    pure (decide (0 < i) && (s.is (i - 1) .dot || s.is (i - 1) .doubleColon)) :=
  both_positive i fun before => s.is before .dot || s.is before .doubleColon

theorem columnEndingAt_eq : columnEndingAt? s last = pure (s.columnEndingAt? last) := by
  unfold columnEndingAt? Statement.columnEndingAt?
  cases s.name? last with
  | none => rfl
  | some column =>
    dsimp only [Option.bind_eq_bind, Option.bind_some]
    split
    · rfl
    rw [qualified_eq, pure_bind]
    by_cases dotted : (decide (2 ≤ last) && s.is (last - 1) .dot) = true
    · rw [if_pos dotted, if_pos dotted]
      cases s.name? (last - 2) with
      | none => rfl
      | some qualifier =>
        dsimp only [Option.map_some, Option.bind_some]
        rw [goesOn_eq, pure_bind]
    · rw [if_neg dotted, if_neg dotted]
      dsimp only
      rw [goesOn_eq, pure_bind]

theorem columnType_eq {name : ColumnName} (begins : lo < s.size) (ends : hi ≤ s.size) :
    columnType s scope i name lo hi = pure (Typing.columnType s scope i name lo hi) := by
  unfold columnType Typing.columnType
  rw [tokens_eq begins ends, pure_bind, lookup_eq, pure_bind]
  cases scope.lookup s i name <;> rfl

theorem typeEndingAt_eq : typeEndingAt s scope last = pure (Typing.typeEndingAt s scope last) := by
  unfold typeEndingAt Typing.typeEndingAt
  rw [columnEndingAt_eq, pure_bind]
  cases found : s.columnEndingAt? last with
  | none => rfl
  | some reference =>
    obtain ⟨name, start⟩ := reference
    obtain ⟨before, inside⟩ := Statement.columnEndingAt_bounds found
    dsimp only
    rw [columnType_eq (by omega) inside, pure_bind]
    rfl

theorem rowCount_eq : rowCount s lo = pure (Typing.rowCount s lo) := by
  unfold rowCount Typing.rowCount
  rw [both_positive lo (s.isOneOf · ["limit", "offset"]), pure_bind]

theorem skipNot_eq : skipNot s last =
    pure (if 0 < last && s.isKeyword last "not" then last - 1 else last) := by
  unfold skipNot
  split
  next found =>
    rw [Bool.and_eq_true, decide_eq_true_iff] at found
    rw [sub_eq found.1]
  · rfl

theorem comparedAfter_eq : comparedAfter s scope lo = pure (Typing.comparedAfter s scope lo) := by
  unfold comparedAfter Typing.comparedAfter
  rw [both_two lo s.isComparison, pure_bind]
  split
  next compared =>
    rw [Bool.and_eq_true, decide_eq_true_iff] at compared
    rw [sub_eq compared.1, pure_bind, skipNot_eq, pure_bind, typeEndingAt_eq]
    rfl
  · rfl

theorem comparedBefore_eq :
    comparedBefore s scope hi = pure (Typing.comparedBefore s scope hi) := by
  unfold comparedBefore Typing.comparedBefore
  generalize (if s.isKeyword (hi + 1) "not" then hi + 2 else hi + 1) = op
  dsimp only
  split
  · cases found : s.columnAt? (op + 1) with
    | none => rfl
    | some reference =>
      obtain ⟨name, next⟩ := reference
      obtain ⟨before, inside⟩ := Statement.columnAt_bounds found
      dsimp only
      rw [columnType_eq (by omega) inside, pure_bind]
      rfl
  · rfl

theorem columnBefore_eq : columnBefore s scope i = pure (Typing.rangeColumn s scope i) := by
  unfold columnBefore Typing.rangeColumn
  cases s.beforeNot? i with
  | none => rfl
  | some last => exact typeEndingAt_eq

theorem lowerBound_eq : lowerBound s scope lo = pure (Typing.lowerBound s scope lo) := by
  unfold lowerBound Typing.lowerBound
  rw [both_two lo (s.isKeyword · "between"), pure_bind]
  split
  next bounded =>
    rw [Bool.and_eq_true, decide_eq_true_iff] at bounded
    rw [sub_eq (by omega), pure_bind, columnBefore_eq]
  · rfl

theorem clauseKeywordBefore_eq {fuel : Nat} (enough : i ≤ fuel) :
    clauseKeywordBefore s fuel i = pure (s.clauseKeywordBefore i) := by
  induction fuel generalizing i with
  | zero =>
    obtain rfl := Nat.le_zero.mp enough
    rfl
  | succ fuel ih =>
    unfold clauseKeywordBefore
    cases i with
    | zero => rfl
    | succ before =>
      rw [Statement.clauseKeywordBefore, decide_eq_true (Nat.succ_pos before), Bool.true_and]
      cases s.isClauseKeyword (before + 1) with
      | true => rfl
      | false =>
        rw [sub_eq (Nat.succ_pos before)]
        exact ih (Nat.le_of_succ_le_succ enough)

theorem upperBound_eq : upperBound s scope lo = pure (Typing.upperBound s scope lo) := by
  have far : decide (3 ≤ lo) = true → 1 ≤ lo := fun far =>
    Nat.le_trans (by decide) (of_decide_eq_true far)
  have guarded := both_sub far (s.isKeyword · "and")
  unfold upperBound Typing.upperBound
  rw [guarded, pure_bind]
  split
  next bounded =>
    rw [Bool.and_eq_true, decide_eq_true_iff] at bounded
    rw [sub_eq (by omega), pure_bind, clauseKeywordBefore_eq (Nat.le_refl _), pure_bind,
      columnBefore_eq]
    dsimp only
    split <;> rfl
  · rfl

theorem listMember_eq : listMember s scope lo hi = pure (Typing.listMember s scope lo hi) := by
  unfold listMember isItem Typing.listMember
  rw [both_positive lo (fun before => s.is before .parenOpen || s.is before .comma), pure_bind,
    pure_bind]
  cases s.enclosing lo with
  | none => rfl
  | some opening =>
    dsimp only
    rw [both_eq (isAfter_eq _), pure_bind, ← Bool.and_assoc]
    split
    next listed =>
      simp only [Bool.and_eq_true, decide_eq_true_iff] at listed
      rw [sub_eq listed.1.2, pure_bind, columnBefore_eq]
      rfl
    · rfl

theorem castOperand_eq : castOperand s i =
    pure (if 2 ≤ i && s.is (i - 1) .parenOpen && s.isKeyword (i - 2) "cast" then
      match s.partner (i - 1) with
      | some closing => (i - 2, closing)
      | none => (i, i)
    else (i, i)) := by
  have far : decide (2 ≤ i) = true → 2 ≤ i := of_decide_eq_true
  have guarded := both_pair far fun opening word => s.is opening .parenOpen && s.isKeyword word "cast"
  unfold castOperand
  rw [guarded, pure_bind, ← Bool.and_assoc]
  split
  next wrapped =>
    simp only [Bool.and_eq_true, decide_eq_true_iff] at wrapped
    rw [sub_eq (by omega), pure_bind, sub_eq (by omega), pure_bind]
  · rfl

variable (paired : s.Paired)

include paired

theorem castAt_eq :
    castAt? s i = pure (if s.is i .doubleColon then s.typeName? (i + 1) else none) := by
  unfold castAt?
  rw [typeName_eq paired]
  split <;> rfl

theorem operand_eq : operand s i = pure (s.operand i) := by
  unfold operand Statement.operand
  rw [unwrapParens_eq, pure_bind]
  obtain ⟨lo, hi⟩ := s.unwrapParens i i
  dsimp only
  rw [castAt_eq paired, pure_bind]
  cases cast : if s.is (hi + 1) .doubleColon then s.typeName? (hi + 1 + 1) else none with
  | none => exact castOperand_eq
  | some type =>
    have named : s.typeName? (hi + 2) = some type := (Option.ite_none_right_eq_some.mp cast).2
    dsimp only
    rw [sub_eq (Statement.typeName_positive named), pure_bind]

theorem contextType_eq (inside : i < s.size) :
    contextType s scope i = pure (Typing.contextType s scope i) := by
  unfold contextType Typing.contextType
  rw [operand_eq paired, pure_bind]
  obtain ⟨lo, hi⟩ := s.operand i
  dsimp only
  rw [token_eq inside, pure_bind]
  exact orElse_eq rowCount_eq <| orElse_eq comparedAfter_eq <| orElse_eq comparedBefore_eq <|
    orElse_eq lowerBound_eq <| orElse_eq upperBound_eq <| orElse_eq listMember_eq rfl

end

/-! ## Parameters without a trap -/

section

variable {schema : Schema} {s : Statement} {scope : Scope}

theorem uses_eq (paired : s.Paired) (parameters : List Parameter) :
    uses s scope parameters = pure (Typing.uses s scope parameters) := by
  unfold uses Typing.uses
  dsimp only
  rw [mapM_eq (f := fun item =>
    (Typing.contextType s scope item.1).map (⟨item.1, item.2, ·⟩)) fun item member => ?_, pure_bind,
    List.filterMap_map]
  · rfl
  · have listed := Statement.mem_placeholders.mp (List.mem_filter.mp member).1
    unfold use?
    rw [contextType_eq paired (Statement.lt_size_of_paramKey listed), pure_bind]

theorem typeOf_eq {parameter : Parameter} (occurs : parameter.occurrences ≠ [])
    (asked : List (Nat × DataType)) :
    typeOf schema parameter asked = pure (Typing.typeOf schema parameter asked) := by
  unfold typeOf Typing.typeOf
  cases parameter.hint with
  | some hint => rfl
  | none =>
    dsimp only
    cases asked with
    | nil =>
      obtain ⟨first, rest, listed⟩ := List.exists_cons_of_ne_nil occurs
      rw [listed]
      rfl
    | cons first others =>
      obtain ⟨i, type⟩ := first
      have same : ((i, type) :: others).find? (fun other => other.2 != type) =
          others.find? fun other => other.2 != type := by simp
      have head : get ((i, type) :: others) 0 = pure (i, type) := rfl
      rw [List.isEmpty_cons, if_neg Bool.false_ne_true, head, pure_bind]
      dsimp only
      rw [same]
      cases others.find? fun other => other.2 != type <;> rfl

theorem typeParameters_eq (paired : s.Paired) {parameters : List Parameter}
    (occur : ∀ p ∈ parameters, p.occurrences ≠ []) :
    typeParameters schema s scope parameters =
      pure (AnnotatedSql.typeParameters schema s scope parameters) := by
  unfold typeParameters AnnotatedSql.typeParameters
  rw [uses_eq paired, pure_bind, mapM_eq fun p member => typeOf_eq (occur p member) _, pure_bind,
    ← List.map_prod_left_eq_zip]
  dsimp only
  rw [List.filterMap_map, List.filterMap_map]
  rfl

end

end Checked

end AnnotatedSql
