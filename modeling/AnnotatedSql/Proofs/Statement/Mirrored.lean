import AnnotatedSql.Projection.Basic

/-!
# Statements that read alike

One statement mirrors another if its tokens are told apart in the same way and its names are those
of the other, respelled. Clauses, types, references and lists are then found at the same places, with
the names respelled in them and nothing else.
-/

namespace AnnotatedSql

/-- The column name with both its parts respelled. -/
def ColumnName.respelled (respell : Name → Name) (name : ColumnName) : ColumnName :=
  ⟨name.qualifier.map respell, respell name.column⟩

/-- The reference with its names respelled. -/
def TableReference.respelled (respell : Name → Name) (reference : TableReference) : TableReference :=
  { reference with
    relation := reference.relation.map fun (name, i) => (respell name, i)
    aliasName := reference.aliasName.map respell }

/-- The step with the names of its reference respelled. -/
def ScopeStep.respelled (respell : Name → Name) : ScopeStep → ScopeStep
  | table reference nullable => .table (reference.respelled respell) nullable
  | absent context => .absent context
  | insertion reference source => .insertion (reference.respelled respell) source

namespace Statement

/-- The second statement reads like the first, apart from its names. Placeholders may be of either
kind. -/
structure Mirrors (respell : Name → Name) (s t : Statement) : Prop where
  size : t.size = s.size
  is : ∀ i kind, kind ≠ .positionalParam → kind ≠ .namedParam → t.is i kind = s.is i kind
  isParam : ∀ i, t.isParam i = s.isParam i
  isKeyword : ∀ i keyword, t.isKeyword i keyword = s.isKeyword i keyword
  number : ∀ i, s.is i .number = true → t.text i = s.text i
  name : ∀ i, t.name? i = (s.name? i).map respell
  typeWord : ∀ i, t.typeWord? i = s.typeWord? i
  pairs : t.pairs = s.pairs
  around : t.around = s.around

namespace Mirrors

variable {respell : Name → Name} {s t : Statement} (mirrors : s.Mirrors respell t)

include mirrors

/-! ## Tokens -/

/-- Tokens that are no placeholders have the same kind. -/
theorem kind {i : Nat} (noParam : s.isParam i = false) : t.kind? i = s.kind? i := by
  have otherNoParam := (mirrors.isParam i).trans noParam
  have same : ∀ kind, kind.isParam = false → (t.kind? i == some kind) = (s.kind? i == some kind) := by
    intro kind plain
    refine mirrors.is i kind ?_ ?_
    · rintro rfl
      cases plain
    · rintro rfl
      cases plain
  unfold Statement.isParam at noParam otherNoParam
  cases first : s.kind? i with
  | none =>
    cases second : t.kind? i with
    | none => rfl
    | some kind =>
      rw [second] at otherNoParam
      have impossible := same kind otherNoParam
      rw [first, second, beq_self_eq_true] at impossible
      cases impossible
  | some kind =>
    rw [first] at noParam
    have found := same kind noParam
    rw [first, beq_self_eq_true] at found
    exact eq_of_beq found

theorem partner (i : Nat) : t.partner i = s.partner i := by
  unfold Statement.partner
  rw [mirrors.pairs]

theorem enclosing (i : Nat) : t.enclosing i = s.enclosing i := by
  unfold Statement.enclosing
  rw [mirrors.around]

theorem isOneOf (i : Nat) (keywords : List String) : t.isOneOf i keywords = s.isOneOf i keywords := by
  unfold Statement.isOneOf
  congr 1
  exact funext (mirrors.isKeyword i)

theorem isClauseKeyword (i : Nat) : t.isClauseKeyword i = s.isClauseKeyword i :=
  mirrors.isOneOf i _

omit mirrors in
theorem any_isWord (kind : Option TokenKind) :
    kind.any TokenKind.isWord = (kind == some .ident || kind == some .quotedIdent) := by
  cases kind with
  | none => rfl
  | some kind => cases kind <;> rfl

omit mirrors in
theorem any_isComparison (kind : Option TokenKind) :
    kind.any TokenKind.isComparison = (kind == some .eq || kind == some .notEq || kind == some .lt ||
      kind == some .ltEq || kind == some .gt || kind == some .gtEq) := by
  cases kind with
  | none => rfl
  | some kind => cases kind <;> rfl

theorem isWord (i : Nat) : t.isWord i = s.isWord i := by
  unfold Statement.isWord
  have same := fun kind first second => mirrors.is i kind first second
  unfold Statement.is at same
  rw [any_isWord, any_isWord]
  simp [same]

theorem isComparison (i : Nat) : t.isComparison i = s.isComparison i := by
  have same := fun kind first second => mirrors.is i kind first second
  unfold Statement.is at same
  unfold Statement.isComparison
  rw [any_isComparison, any_isComparison, mirrors.isOneOf]
  simp [same]

theorem outwards (fuel : Nat) (opening : Option Nat) :
    t.outwards fuel opening = s.outwards fuel opening := by
  induction fuel generalizing opening with
  | zero => rfl
  | succ fuel ih => cases opening <;> simp [Statement.outwards, mirrors.enclosing, ih]

theorem enclosers (i : Nat) : t.enclosers i = s.enclosers i := by
  simp [Statement.enclosers, mirrors.enclosing, mirrors.outwards]

theorem opensSubquery : t.opensSubquery = s.opensSubquery := by
  funext i
  simp [Statement.opensSubquery, mirrors.is, mirrors.isKeyword]

theorem queryContext (i : Nat) : t.queryContext i = s.queryContext i := by
  simp [Statement.queryContext, mirrors.enclosers, mirrors.opensSubquery]

theorem contexts (i : Nat) : t.contexts i = s.contexts i := by
  simp [Statement.contexts, subqueries, mirrors.enclosers, mirrors.opensSubquery]

theorem isCall (i : Nat) : t.isCall i = s.isCall i := by
  simp [Statement.isCall, mirrors.is, mirrors.isClauseKeyword]

theorem widen (fuel lo hi : Nat) : t.widen fuel lo hi = s.widen fuel lo hi := by
  induction fuel generalizing lo hi with
  | zero => rfl
  | succ fuel ih => simp [Statement.widen, mirrors.is, mirrors.partner, mirrors.isCall, ih]

theorem unwrapParens (lo hi : Nat) : t.unwrapParens lo hi = s.unwrapParens lo hi :=
  mirrors.widen lo lo hi

omit mirrors in
/-- One step of splitting asks for two kinds only. -/
theorem itemsFrom_succ (s : Statement) (hi fuel start i : Nat) :
    s.itemsFrom hi (fuel + 1) start i =
      if i < hi then
        if s.is i .parenOpen then
          s.itemsFrom hi fuel start (match s.partner i with
            | some closing => closing + 1
            | none => hi)
        else if s.is i .comma then (start, i) :: s.itemsFrom hi fuel (i + 1) (i + 1)
        else s.itemsFrom hi fuel start (i + 1)
      else if start < hi then [(start, hi)] else [] := by
  unfold Statement.is
  rw [itemsFrom]
  cases s.kind? i with
  | none => rfl
  | some kind => cases kind <;> rfl

theorem itemsFrom (hi fuel start i : Nat) :
    t.itemsFrom hi fuel start i = s.itemsFrom hi fuel start i := by
  induction fuel generalizing start i with
  | zero => rfl
  | succ fuel ih => simp [itemsFrom_succ, mirrors.is, mirrors.partner, ih]

theorem splitCommas (lo hi : Nat) : t.splitCommas lo hi = s.splitCommas lo hi :=
  mirrors.itemsFrom hi (hi - lo) lo lo

theorem skipGroup (next : Nat) : t.skipGroup next = s.skipGroup next := by
  simp [Statement.skipGroup, mirrors.is, mirrors.partner]

/-! ## Names and types -/

theorem followDots (fuel : Nat) (name : Name) (next : Nat) :
    t.followDots fuel (respell name) next =
      ((s.followDots fuel name next).1 |> respell, (s.followDots fuel name next).2) := by
  induction fuel generalizing name next with
  | zero => rfl
  | succ fuel ih =>
    unfold Statement.followDots
    rw [mirrors.is _ _ (by simp) (by simp), mirrors.name]
    split
    · cases s.name? (next + 1) with
      | none => rfl
      | some part => exact ih part (next + 2)
    · rfl

theorem objectName (i : Nat) :
    t.objectName i = (s.objectName i).map fun (name, after) => (respell name, after) := by
  unfold Statement.objectName
  rw [mirrors.name, mirrors.size]
  cases s.name? i with
  | none => rfl
  | some name => exact congrArg some (mirrors.followDots s.size name (i + 1))

theorem followTypeDots (fuel : Nat) (word : String) (next : Nat) :
    t.followTypeDots fuel word next = s.followTypeDots fuel word next := by
  induction fuel generalizing word next with
  | zero => rfl
  | succ fuel ih => simp [Statement.followTypeDots, mirrors.is, mirrors.typeWord, ih]

theorem completeType (word : String) (next : Nat) :
    t.completeType word next = s.completeType word next := by
  simp [Statement.completeType, isTimeZone, mirrors.isKeyword]

theorem arraySuffixes (fuel next : Nat) :
    t.arraySuffixes fuel next = s.arraySuffixes fuel next := by
  induction fuel generalizing next with
  | zero => rfl
  | succ fuel ih => simp [Statement.arraySuffixes, mirrors.is, ih]

theorem typeName (i : Nat) : t.typeName? i = s.typeName? i := by
  simp [typeName?, mirrors.typeWord, mirrors.size, mirrors.followTypeDots, mirrors.completeType,
    mirrors.skipGroup, mirrors.arraySuffixes]

theorem castTarget (lo hi : Nat) : t.castTarget? lo hi = s.castTarget? lo hi := by
  simp [castTarget?, mirrors.is, mirrors.isKeyword, mirrors.typeName, mirrors.partner]

theorem castHint (i : Nat) : t.castHint? i = s.castHint? i := by
  simp [castHint?, mirrors.unwrapParens, mirrors.is, mirrors.typeName, mirrors.castTarget]

/-! ## References to tables -/

theorem aliasAt (i : Nat) :
    t.aliasAt i = ((s.aliasAt i).1.map respell, (s.aliasAt i).2) := by
  unfold Statement.aliasAt
  dsimp only
  rw [mirrors.isKeyword, mirrors.isWord, mirrors.isClauseKeyword, mirrors.name, mirrors.name]
  cases s.isKeyword i "as" with
  | true => cases s.name? (i + 1) <;> simp [mirrors.skipGroup]
  | false =>
    cases s.isWord i && !s.isClauseKeyword i with
    | true => cases s.name? i <;> simp [mirrors.skipGroup]
    | false => rfl

theorem relationReference (i : Nat) :
    t.relationReference? i = (s.relationReference? i).map (TableReference.respelled respell) := by
  unfold relationReference?
  rw [mirrors.objectName]
  cases s.objectName i with
  | none => rfl
  | some found => simp [mirrors.aliasAt, TableReference.respelled]

theorem groupReference (start i : Nat) :
    t.groupReference? start i = (s.groupReference? start i).map (TableReference.respelled respell) := by
  unfold groupReference?
  rw [mirrors.partner]
  cases s.partner i with
  | none => rfl
  | some closing => simp [mirrors.aliasAt, TableReference.respelled]

theorem skipTableWords (fuel i : Nat) : t.skipTableWords fuel i = s.skipTableWords fuel i := by
  induction fuel generalizing i with
  | zero => rfl
  | succ fuel ih => simp [Statement.skipTableWords, mirrors.isOneOf, ih]

theorem tableReference (i : Nat) :
    t.tableReference? i = (s.tableReference? i).map (TableReference.respelled respell) := by
  unfold tableReference?
  dsimp only
  rw [mirrors.size, mirrors.skipTableWords, mirrors.is _ _ (by simp) (by simp),
    mirrors.isClauseKeyword, mirrors.groupReference, mirrors.objectName]
  split
  · rfl
  split
  · rfl
  cases s.objectName (s.skipTableWords s.size i) with
  | none => rfl
  | some found =>
    dsimp only [Option.map_some]
    rw [mirrors.is _ _ (by simp) (by simp), mirrors.groupReference, mirrors.relationReference]
    split <;> rfl

theorem tableList (fuel i : Nat) :
    t.tableList fuel i = (s.tableList fuel i).map (TableReference.respelled respell) := by
  induction fuel generalizing i with
  | zero => rfl
  | succ fuel ih =>
    unfold Statement.tableList
    rw [mirrors.tableReference]
    cases s.tableReference? i with
    | none => rfl
    | some reference =>
      dsimp only [Option.map_some, TableReference.respelled]
      rw [mirrors.is _ _ (by simp) (by simp), ih]
      split <;> rfl

theorem isClauseLevel (i : Nat) : t.isClauseLevel i = s.isClauseLevel i := by
  simp [Statement.isClauseLevel, mirrors.enclosing, mirrors.opensSubquery]

theorem startsStatement (i : Nat) : t.startsStatement i = s.startsStatement i := by
  simp [Statement.startsStatement, mirrors.is]

theorem isJoin (i : Nat) (kind : String) : t.isJoin i kind = s.isJoin i kind := by
  simp [Statement.isJoin, mirrors.isKeyword]

theorem joinSteps (i : Nat) : t.joinSteps i = (s.joinSteps i).map (ScopeStep.respelled respell) := by
  unfold Statement.joinSteps
  dsimp only
  simp only [mirrors.isJoin, mirrors.queryContext, mirrors.tableReference]
  rw [List.map_append]
  congr 1
  · split <;> rfl
  · cases s.tableReference? (i + 1) <;> rfl

theorem valueRows (fuel i : Nat) : t.valueRows fuel i = s.valueRows fuel i := by
  induction fuel generalizing i with
  | zero => rfl
  | succ fuel ih => simp [Statement.valueRows, mirrors.is, mirrors.partner, ih]

theorem insertSource (i : Nat) : t.insertSource i = s.insertSource i := by
  simp [Statement.insertSource, mirrors.is, mirrors.partner, mirrors.splitCommas,
    mirrors.isKeyword, mirrors.size, mirrors.valueRows]

theorem scopeStepsAt (i : Nat) :
    t.scopeStepsAt i = (s.scopeStepsAt i).map (ScopeStep.respelled respell) := by
  unfold Statement.scopeStepsAt
  rw [mirrors.isClauseLevel, mirrors.isKeyword, mirrors.isKeyword, mirrors.isKeyword,
    mirrors.isKeyword, mirrors.isKeyword, mirrors.startsStatement, mirrors.size, mirrors.tableList,
    mirrors.joinSteps, mirrors.tableReference, mirrors.relationReference]
  split
  · rfl
  split
  · rw [List.map_map, List.map_map]
    rfl
  split
  · rfl
  split
  · cases s.tableReference? (i + 1) <;> rfl
  split
  · cases s.relationReference? (i + 1) with
    | none => rfl
    | some reference => simp [ScopeStep.respelled, mirrors.insertSource, TableReference.respelled]
  · rfl

theorem scopeSteps : t.scopeSteps = s.scopeSteps.map (ScopeStep.respelled respell) := by
  unfold Statement.scopeSteps
  rw [mirrors.size, List.map_flatMap]
  congr 1
  exact funext mirrors.scopeStepsAt

/-! ## Operands and columns -/

theorem columnEndingAt (last : Nat) : t.columnEndingAt? last =
    (s.columnEndingAt? last).map fun (name, start) => (name.respelled respell, start) := by
  unfold columnEndingAt?
  rw [mirrors.name, mirrors.name, mirrors.isClauseKeyword, mirrors.is _ _ (by simp) (by simp)]
  simp only [mirrors.is _ .dot (by simp) (by simp), mirrors.is _ .doubleColon (by simp) (by simp)]
  cases s.name? last with
  | none => rfl
  | some column =>
    cases s.isClauseKeyword last with
    | true => rfl
    | false =>
      cases decide (2 ≤ last) && s.is (last - 1) .dot with
      | true =>
        cases s.name? (last - 2) with
        | none => rfl
        | some qualifier => simp [ColumnName.respelled, apply_ite (Option.map _)]
      | false => simp [ColumnName.respelled, apply_ite (Option.map _)]

theorem columnPath (first : Nat) : t.columnPath? first =
    (s.columnPath? first).map fun (name, next) => (name.respelled respell, next) := by
  unfold columnPath?
  rw [mirrors.isClauseKeyword, mirrors.name, mirrors.name]
  split
  · rfl
  cases s.name? first with
  | none => rfl
  | some name =>
    dsimp only [Option.map_some]
    rw [mirrors.is _ _ (by simp) (by simp)]
    split
    · cases s.name? (first + 2) <;> rfl
    · rfl

theorem columnAt (first : Nat) : t.columnAt? first =
    (s.columnAt? first).map fun (name, next) => (name.respelled respell, next) := by
  unfold columnAt?
  rw [mirrors.columnPath]
  cases s.columnPath? first with
  | none => rfl
  | some path =>
    simp only [Option.map_some, Option.filter_some, mirrors.is _ .parenOpen (by simp) (by simp),
      mirrors.is _ .dot (by simp) (by simp), mirrors.is _ .doubleColon (by simp) (by simp)]
    split <;> rfl

theorem operand (i : Nat) : t.operand i = s.operand i := by
  simp [Statement.operand, mirrors.unwrapParens, mirrors.is, mirrors.typeName, mirrors.isKeyword,
    mirrors.partner]

theorem beforeNot (i : Nat) : t.beforeNot? i = s.beforeNot? i := by
  cases i <;> simp [beforeNot?, mirrors.isKeyword]

theorem clauseKeywordBefore (i : Nat) : t.clauseKeywordBefore i = s.clauseKeywordBefore i := by
  induction i with
  | zero => rfl
  | succ i ih => simp [Statement.clauseKeywordBefore, mirrors.isClauseKeyword, ih]

/-! ## The projection -/

theorem findTop (lo hi : Nat) (test : Nat → Bool) : t.findTop? lo hi test = s.findTop? lo hi test := by
  simp [findTop?, isTop, mirrors.enclosing]

theorem selectListStart (i : Nat) : t.selectListStart i = s.selectListStart i := by
  simp [Statement.selectListStart, mirrors.isKeyword, mirrors.partner]

theorem projectionItems : t.projectionItems? = s.projectionItems? := by
  simp [projectionItems?, projectionRange?, mirrors.findTop, mirrors.isOneOf, mirrors.is,
    mirrors.size, mirrors.isKeyword, mirrors.selectListStart, mirrors.splitCommas]

theorem isStar (lo hi : Nat) : t.isStar lo hi = s.isStar lo hi := by
  simp [Statement.isStar, mirrors.is]

theorem starQualifier (lo hi : Nat) :
    t.starQualifier? lo hi = (s.starQualifier? lo hi).map respell := by
  unfold starQualifier?
  rw [mirrors.is _ _ (by simp) (by simp), mirrors.is _ _ (by simp) (by simp), mirrors.name]
  split <;> rfl

theorem hasAlias (lo hi : Nat) : t.hasAlias lo hi = s.hasAlias lo hi := by
  simp [Statement.hasAlias, mirrors.isKeyword, mirrors.isWord]

theorem mayEndInAlias (lo hi : Nat) : t.mayEndInAlias lo hi = s.mayEndInAlias lo hi := by
  simp [Statement.mayEndInAlias, mirrors.isWord, mirrors.isClauseKeyword, mirrors.is]

theorem trailingCast (lo hi : Nat) : t.trailingCast? lo hi = s.trailingCast? lo hi := by
  simp [trailingCast?, lastCast?, mirrors.is, mirrors.enclosing, mirrors.typeName]

theorem isCount (lo hi : Nat) : t.isCount lo hi = s.isCount lo hi := by
  simp [Statement.isCount, mirrors.isKeyword, mirrors.is, mirrors.partner]

theorem fieldPath (hi fuel i : Nat) : t.fieldPath? hi fuel i = s.fieldPath? hi fuel i := by
  induction fuel generalizing i with
  | zero => rfl
  | succ fuel ih => simp [fieldPath?, mirrors.is, mirrors.isWord, ih]

theorem leadingGroup (lo hi : Nat) : t.leadingGroup? lo hi = s.leadingGroup? lo hi := by
  simp [leadingGroup?, mirrors.is, mirrors.partner]

end Mirrors

end Statement

end AnnotatedSql
