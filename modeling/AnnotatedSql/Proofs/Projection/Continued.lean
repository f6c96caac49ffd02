import AnnotatedSql.Proofs.Projection.Bare
import AnnotatedSql.Proofs.Resolution.Continued
import AnnotatedSql.Proofs.Resolution.Placement
import Mathlib.Data.List.Find

/-!
# Columns of statements that go on

In a statement that goes on, an expression of the beginning has the name and the type that it had, or
one of its columns has become ambiguous. So the rest can add to the columns of a `*` only.
-/

namespace AnnotatedSql

/-! ## Reading expressions -/

namespace Statement.Embeds

variable {n : Nat} {s t : Statement} (embeds : s.Embeds n t) {i lo hi : Nat}

include embeds

theorem lastCast (bounded : hi ≤ s.size) :
    t.lastCast? (lo + n) (hi + n) = (s.lastCast? lo hi).map (· + n) := by
  unfold lastCast?
  have range : List.range' (lo + n + 1) (hi + n - (lo + n + 1)) =
      (List.range' (lo + 1) (hi - (lo + 1))).map (· + n) := by
    rw [show hi + n - (lo + n + 1) = hi - (lo + 1) by omega]
    simp only [Nat.add_comm _ n]
    rw [List.map_add_range', Nat.add_assoc]
  rw [range, ← List.map_reverse, List.find?_map]
  refine congrArg _ (List.find?_congr fun i member => ?_)
  obtain ⟨later, before⟩ := List.mem_range'_1.mp (List.mem_reverse.mp member)
  have level : (t.enclosing (i + n) == t.enclosing (lo + n)) = (s.enclosing i == s.enclosing lo) := by
    rw [embeds.enclosing (by omega), embeds.enclosing (by omega), Bool.eq_iff_iff, beq_iff_eq,
      beq_iff_eq]
    exact movedContext_inj level_head_lt
  rw [Function.comp_apply, level, embeds.is_inside (by omega)]

theorem trailingCast (bounded : hi ≤ s.size) : t.trailingCast? (lo + n) (hi + n) =
    (s.trailingCast? lo hi).map fun (cast, type) => (cast + n, type.moved n) := by
  unfold trailingCast?
  rw [embeds.lastCast bounded]
  cases found : s.lastCast? lo hi with
  | none => rfl
  | some cast =>
    have colons : s.is cast .doubleColon = true := by
      have test := List.find?_some found
      exact (Bool.and_eq_true_iff.mp test).1
    have word := embeds.typeWord_after (lt_size_of_is colons) (by simp [Statement.takesName, colons])
    dsimp only [Option.map_some, Option.bind_eq_bind, Option.bind_some]
    rw [Nat.add_right_comm, embeds.typeName word]
    cases s.typeName? (cast + 1) with
    | none => rfl
    | some type =>
      have ends : ((type.moved n).hi == hi + n) = (type.hi == hi) := beq_moved ..
      dsimp only [Option.map_some, Option.bind_some]
      rw [ends]
      split <;> rfl

theorem isCount (inside : lo < s.size) (later : lo < hi) :
    t.isCount (lo + n) (hi + n) = s.isCount lo hi := by
  unfold Statement.isCount
  rw [embeds.isKeyword_inside inside, Nat.add_right_comm, embeds.is (Nat.succ_le_of_lt inside) (by simp)]
  cases opens : s.is (lo + 1) .parenOpen with
  | false => simp
  | true =>
    rw [embeds.partner (lt_size_of_is opens), show hi + n - 1 = hi - 1 + n by omega]
    rw [map_beq_moved]

/-- The path to a column that is all there is. -/
theorem wholePath (inside : lo < s.size) :
    (t.columnPath? (lo + n)).filter (fun path => path.2 == hi + n) =
      ((s.columnPath? lo).filter fun path => path.2 == hi).map fun path => (path.1, path.2 + n) := by
  rw [embeds.columnPath inside]
  cases s.columnPath? lo with
  | none => rfl
  | some path => by_cases whole : path.2 = hi <;> simp [Option.filter, whole]

theorem leadingGroup (inside : lo < s.size) :
    t.leadingGroup? (lo + n) (hi + n) = (s.leadingGroup? lo hi).map (· + n) := by
  unfold leadingGroup?
  rw [embeds.is_inside inside, embeds.partner inside]
  split
  · cases s.partner lo with
    | none => rfl
    | some closing => by_cases before : closing < hi <;> simp [Option.filter, before]
  · rfl

omit embeds in
theorem fieldPath_past {u : Statement} {fuel : Nat} (past : hi < i) :
    u.fieldPath? hi fuel i = none := by
  have ends : (i == hi) = false := beq_eq_false_iff_ne.mpr (by omega)
  cases fuel <;> simp [fieldPath?, ends, Nat.not_lt.mpr (Nat.le_of_lt past)]

theorem fieldPath {f g : Nat} (bounded : hi ≤ s.size) (enough : hi < i + f)
    (enoughToo : hi < i + g) :
    t.fieldPath? (hi + n) g (i + n) = (s.fieldPath? hi f i).map (List.map (· + n)) := by
  induction f generalizing g i with
  | zero =>
    rw [fieldPath_past (show hi < i from enough), fieldPath_past (by omega), Option.map_none]
  | succ f ih =>
    rcases Nat.eq_zero_or_pos g with rfl | some_
    · have past : hi < i := enoughToo
      rw [fieldPath_past past, fieldPath_past (by omega), Option.map_none]
    obtain ⟨g, rfl⟩ : ∃ less, g = less + 1 := ⟨g - 1, by omega⟩
    rcases Nat.lt_trichotomy i hi with before | rfl | past
    · unfold fieldPath?
      have inside := Nat.lt_of_lt_of_le before bounded
      rw [if_pos before, if_pos (Nat.add_lt_add_right before n), embeds.is_inside inside]
      cases dot : s.is i .dot with
      | false => rfl
      | true =>
        have word : t.isWord (i + 1 + n) = s.isWord (i + 1) := by
          rcases Nat.eq_or_lt_of_le (Nat.succ_le_of_lt inside) with last | further
          · have last : i + 1 = s.size := last
            rw [last, isWord_past, embeds.isWord_after_of_takesName last]
            simp [Statement.takesName, dot]
          · exact embeds.isWord further
        rw [Nat.add_right_comm, word, Bool.true_and]
        split
        · rw [Nat.add_right_comm i n 2, ih (show hi < i + 2 + f by omega)
            (show hi < i + 2 + g by omega)]
          cases s.fieldPath? hi f (i + 2) <;> rfl
        · rfl
    · simp [fieldPath?]
    · rw [fieldPath_past past, fieldPath_past (by omega), Option.map_none]

theorem isStar (bounded : hi ≤ s.size) : t.isStar (lo + n) (hi + n) = s.isStar lo hi := by
  unfold Statement.isStar
  have length : (hi + n == lo + n + 1) = (hi == lo + 1) := by
    rw [Nat.add_right_comm, beq_moved]
  rw [length]
  cases alone : hi == lo + 1 with
  | false => rfl
  | true =>
    have alone := eq_of_beq alone
    rw [embeds.is_inside (by omega)]

theorem starQualifier (bounded : hi ≤ s.size) :
    t.starQualifier? (lo + n) (hi + n) = s.starQualifier? lo hi := by
  unfold starQualifier?
  have length : (hi + n == lo + n + 3) = (hi == lo + 3) := by
    rw [Nat.add_right_comm, beq_moved]
  rw [length]
  cases alone : hi == lo + 3 with
  | false => rfl
  | true =>
    have alone := eq_of_beq alone
    rw [Nat.add_right_comm lo n 1, Nat.add_right_comm lo n 2, embeds.is_inside (by omega),
      embeds.is_inside (by omega), embeds.name (by omega)]

theorem hasAlias (bounded : hi ≤ s.size) : t.hasAlias (lo + n) (hi + n) = s.hasAlias lo hi := by
  unfold Statement.hasAlias
  by_cases length : lo + 3 ≤ hi
  · rw [show hi + n - 2 = hi - 2 + n by omega, show hi + n - 1 = hi - 1 + n by omega,
      embeds.isKeyword_inside (by omega), embeds.isWord (by omega)]
    simp [length, show lo + n + 3 ≤ hi + n by omega]
  · simp [length, show ¬lo + n + 3 ≤ hi + n by omega]

theorem mayEndInAlias (bounded : hi ≤ s.size) :
    t.mayEndInAlias (lo + n) (hi + n) = s.mayEndInAlias lo hi := by
  unfold Statement.mayEndInAlias
  by_cases length : lo + 2 ≤ hi
  · rw [show hi + n - 2 = hi - 2 + n by omega, show hi + n - 1 = hi - 1 + n by omega,
      embeds.isWord (by omega), embeds.isClauseKeyword (by omega), embeds.is_inside (by omega),
      embeds.is_inside (by omega)]
    simp [length, show lo + n + 2 ≤ hi + n by omega]
  · simp [length, show ¬lo + n + 2 ≤ hi + n by omega]

end Statement.Embeds

/-! ## Expressions -/

theorem FoundColumn.typed_raised (lost : Bool) (columns : List FoundColumn) :
    ((columns.map (FoundColumn.raised lost)).map ResultColumn.ofFound).map ResultColumn.typed =
      (columns.map ResultColumn.ofFound).map ResultColumn.typed := by
  rw [List.map_map, List.map_map, List.map_map]
  rfl

theorem FoundColumn.map_raised_false (columns : List FoundColumn) :
    columns.map (FoundColumn.raised false) = columns := by
  refine (List.map_congr_left fun found _ => ?_).trans (List.map_id _)
  simp [FoundColumn.raised]

/-- The columns that entries at statement level add to an item: all their columns if it is a `*`. -/
def Statement.starColumns (s : Statement) (entries : List ScopeEntry) (item : Nat × Nat) :
    List ResultColumn :=
  if s.isStar item.1 item.2 then (entries.flatMap ScopeEntry.columns).map .ofFound else []

/-- What an expression of the beginning is in the whole: it fails, or it has the name and the type
that it had. `lost` tells that outer joins in the rest may have made it null. Nothing is said of an
expression that failed before. -/
inductive ExpressionFollows (lost : Bool) :
    Except ExpressionFault Expression → Except ExpressionFault Expression → Prop
  | failed (finding : Finding) (outcome : Except ExpressionFault Expression) :
      ExpressionFollows lost (.error (.failed finding)) outcome
  | fails (outcome : Except ExpressionFault Expression) (finding : Finding) :
      ExpressionFollows lost outcome (.error (.failed finding))
  | untyped : ExpressionFollows lost (.error .untyped) (.error .untyped)
  | same {first later : Expression} (name : later.name = first.name)
      (type : later.type = first.type) (nullable : lost = false → later.nullable = first.nullable) :
      ExpressionFollows lost (.ok first) (.ok later)

theorem ExpressionFollows.refl (lost : Bool) (outcome : Except ExpressionFault Expression) :
    ExpressionFollows lost outcome outcome := by
  cases outcome with
  | ok expression => exact .same rfl rfl fun _ => rfl
  | error fault =>
    cases fault with
    | untyped => exact .untyped
    | failed finding => exact .failed finding _

/-- The statement of `env` stands in that of `other`, neither has parameters, and a column that is
known in the first is found in the second as well, or it is ambiguous there. -/
structure Surroundings.Continues (n : Nat) (lost : Bool) (env other : Surroundings) : Prop where
  embeds : env.statement.Embeds n other.statement
  schema : other.schema = env.schema
  bare : env.parameters = [] ∧ other.parameters = []
  lookup : ∀ {i : Nat} {name : ColumnName} {found : FoundColumn}, i < env.statement.size →
    env.scope.lookup env.statement i name = .ok found →
    other.scope.lookup other.statement (i + n) name = .error .ambiguous ∨
      ∃ again, other.scope.lookup other.statement (i + n) name = .ok again ∧
        again.column = found.column ∧ (lost = false → again = found)

namespace Surroundings.Continues

variable {n : Nat} {lost : Bool} {env other : Surroundings}
  (continues : env.Continues n lost other) {i lo hi : Nat}

include continues

theorem column (inside : i < env.statement.size) (name : ColumnName) (next : Nat) :
    ExpressionFollows lost (env.column i name next) (other.column (i + n) name (next + n)) := by
  unfold Surroundings.column
  cases known : env.scope.lookup env.statement i name with
  | error fault => exact .failed ..
  | ok found =>
    rcases continues.lookup inside known with ambiguous | ⟨again, found, column, nullable⟩
    · rw [ambiguous]
      exact .fails ..
    · rw [found]
      exact .same (by rw [column]) (by rw [column]) fun kept => by rw [nullable kept]

theorem token (inside : i < env.statement.size) :
    ExpressionFollows lost (env.token i) (other.token (i + n)) := by
  have untyped : env.placeholder i = .error .untyped ∧ other.placeholder (i + n) = .error .untyped := by
    unfold Surroundings.placeholder
    rw [continues.bare.1, continues.bare.2]
    constructor
    · cases env.statement.paramKey? i <;> rfl
    · cases other.statement.paramKey? (i + n) <;> rfl
  unfold Surroundings.token
  dsimp only
  rw [continues.embeds.kind inside, continues.embeds.text inside,
    continues.embeds.isOneOf_inside inside, continues.embeds.columnPath inside, untyped.1, untyped.2]
  split
  · exact .refl ..
  · exact .refl ..
  · exact .untyped
  · exact .untyped
  · split
    · exact .refl ..
    · cases env.statement.columnPath? i with
      | none => exact .untyped
      | some path => exact continues.column inside path.1 path.2
  · split
    · exact .refl ..
    · cases env.statement.columnPath? i with
      | none => exact .untyped
      | some path => exact continues.column inside path.1 path.2
  · exact .untyped

theorem cast (type : TypeName) {operand operandToo : Except ExpressionFault Expression}
    (follows : ExpressionFollows lost operand operandToo) :
    ExpressionFollows lost (env.cast type operand) (other.cast (type.moved n) operandToo) := by
  unfold Surroundings.cast
  rw [continues.schema]
  dsimp only [TypeName.moved]
  cases env.schema.typeNamed? type.text with
  | none => exact .fails ..
  | some target =>
    cases follows with
    | failed finding outcome => exact .failed ..
    | fails outcome finding => exact .fails ..
    | untyped => exact .same rfl rfl fun _ => rfl
    | same name type nullable => exact .same name rfl nullable

/-- A field depends on the type of the whole only. -/
theorem fields {names : List Nat} (inside : ∀ i ∈ names, i < env.statement.size)
    {whole wholeToo : Except ExpressionFault Expression}
    (follows : ExpressionFollows lost whole wholeToo) :
    ExpressionFollows lost (whole >>= fun first => names.foldlM env.field first)
      (wholeToo >>= fun first => (names.map (· + n)).foldlM other.field first) := by
  induction names generalizing whole wholeToo with
  | nil =>
    cases follows with
    | failed finding outcome => exact .failed ..
    | fails outcome finding => exact .fails ..
    | untyped => exact .untyped
    | same name type nullable => exact .same name type nullable
  | cons i names ih =>
    have step : ExpressionFollows lost (whole >>= fun first => env.field first i)
        (wholeToo >>= fun first => other.field first (i + n)) := by
      cases follows with
      | failed finding outcome => exact .failed ..
      | fails outcome finding => exact .fails ..
      | untyped => exact .untyped
      | @same first later name type nullable =>
        change ExpressionFollows lost (env.field first i) (other.field later (i + n))
        unfold Surroundings.field
        rw [continues.embeds.name (inside i (by simp)), type]
        dsimp only
        cases first.type.field? (((env.statement.name? i).map Name.text).getD "") with
        | none => exact .failed ..
        | some field => exact .refl ..
    have rest := ih (fun j member => inside j (by simp [member])) step
    simpa [List.foldlM_cons, bind_assoc] using rest

/-- So it is with every expression. -/
theorem expressionWithin (fuel : Nat) (bounded : hi ≤ env.statement.size) :
    ExpressionFollows lost (env.expressionWithin fuel lo hi)
      (other.expressionWithin fuel (lo + n) (hi + n)) := by
  induction fuel generalizing lo hi with
  | zero => exact .untyped
  | succ fuel ih =>
    have embeds := continues.embeds
    unfold Surroundings.expressionWithin
    dsimp only
    by_cases empty : hi ≤ lo
    · rw [if_pos empty, if_pos (by omega)]
      exact .untyped
    have inside : lo < env.statement.size := by omega
    rw [if_neg empty, if_neg (show ¬hi + n ≤ lo + n by omega), embeds.trailingCast bounded]
    cases trailing : env.statement.trailingCast? lo hi with
    | some found =>
      have bounds := Statement.trailingCast_bounds trailing
      exact continues.cast found.2 (ih (show found.1 ≤ env.statement.size by omega))
    | none =>
      have length : (hi + n == lo + n + 1) = (hi == lo + 1) := by
        rw [Nat.add_right_comm, beq_moved]
      dsimp only [Option.map_none]
      rw [length, embeds.wholePath inside, embeds.isCount inside (by omega),
        embeds.leadingGroup inside]
      split
      · exact continues.token inside
      cases (env.statement.columnPath? lo).filter fun path => path.2 == hi with
      | some path => exact continues.column inside path.1 path.2
      | none =>
        dsimp only [Option.map_none]
        split
        · exact .refl ..
        cases group : env.statement.leadingGroup? lo hi with
        | none => exact .untyped
        | some closing =>
          have sizes := embeds.size_le
          have before := (Statement.leadingGroup_parts group).2.2
          dsimp only [Option.map_some]
          rw [Nat.add_right_comm, embeds.fieldPath (f := env.statement.size) bounded (by omega)
            (by omega)]
          cases names : env.statement.fieldPath? hi env.statement.size (closing + 1) with
          | none => exact .untyped
          | some list =>
            dsimp only [Option.map_some]
            rw [Nat.add_right_comm lo n 1]
            exact continues.fields (fun name member =>
                ((Surroundings.fieldPath_inside names).2 name member).2.2)
              (ih (show closing ≤ env.statement.size by omega))

theorem expression (bounded : hi ≤ env.statement.size) :
    ExpressionFollows lost (env.expression lo hi) (other.expression (lo + n) (hi + n)) := by
  unfold Surroundings.expression
  rw [Nat.add_sub_add_right]
  exact continues.expressionWithin (hi - lo) bounded

/-! ## Items -/

theorem aliased {last : Nat} (bounded : hi ≤ env.statement.size) (inside : last < env.statement.size) :
    ExpressionFollows lost (env.aliased lo hi last) (other.aliased (lo + n) (hi + n) (last + n)) := by
  unfold Surroundings.aliased
  rw [continues.embeds.name inside]
  have follows : ExpressionFollows lost (env.expression lo hi) (other.expression (lo + n) (hi + n)) :=
    continues.expression bounded
  generalize env.expression lo hi = first, other.expression (lo + n) (hi + n) = later at follows ⊢
  cases follows with
  | failed finding outcome => exact .failed ..
  | fails outcome finding => exact .fails ..
  | untyped => exact .untyped
  | same name type nullable => exact .same (by rw [name]) type nullable

theorem single (bounded : hi ≤ env.statement.size) :
    ExpressionFollows lost (env.single lo hi) (other.single (lo + n) (hi + n)) := by
  unfold Surroundings.single
  dsimp only
  rw [continues.embeds.hasAlias bounded, continues.embeds.mayEndInAlias bounded]
  split
  next alias_ =>
    have length : lo + 3 ≤ hi := by
      unfold Statement.hasAlias at alias_
      simp only [Bool.and_eq_true, decide_eq_true_eq] at alias_
      exact alias_.1.1
    rw [show hi + n - 2 = hi - 2 + n by omega, show hi + n - 1 = hi - 1 + n by omega]
    exact continues.aliased (by omega) (by omega)
  · have follows : ExpressionFollows lost (env.expression lo hi)
        (other.expression (lo + n) (hi + n)) := continues.expression bounded
    generalize env.expression lo hi = first, other.expression (lo + n) (hi + n) = later at follows ⊢
    cases follows with
    | failed finding outcome => exact .failed ..
    | fails outcome finding => exact .fails ..
    | same name type nullable => exact .same name type nullable
    | untyped =>
      dsimp only
      split
      next word =>
        have length : lo + 2 ≤ hi := by
          unfold Statement.mayEndInAlias at word
          simp only [Bool.and_eq_true, decide_eq_true_eq] at word
          exact word.1.1.1
        rw [show hi + n - 1 = hi - 1 + n by omega]
        exact continues.aliased (by omega) (by omega)
      · exact .untyped

/-- A `*` with a qualifier gives the columns of the same table. -/
theorem item_of_starQualifier {more : List ScopeEntry} {qualifier : Name}
    (entries : other.scope.statementEntries =
      env.scope.statementEntries.map (ScopeEntry.raised lost) ++ more)
    (bounded : hi ≤ env.statement.size)
    (qualified : env.statement.starQualifier? lo hi = some qualifier)
    {first later : List ResultColumn} (gives : env.item lo hi = .ok first)
    (givesToo : other.item (lo + n) (hi + n) = .ok later) :
    later.map ResultColumn.typed = first.map ResultColumn.typed ∧ (lost = false → later = first) := by
  rw [Surroundings.item_of_starQualifier qualified] at gives
  rw [Surroundings.item_of_starQualifier ((continues.embeds.starQualifier bounded).trans qualified),
    entries] at givesToo
  split at gives
  next entry found =>
    have known : env.scope.statementEntries.find? (fun entry =>
        (entry.raised lost).answersTo qualifier) = some entry := by
      simpa using found
    have top : entry.context = none :=
      eq_of_beq (List.mem_filter.mp (List.mem_of_find?_eq_some found)).2
    rw [List.find?_append, List.find?_map, Function.comp_def, known] at givesToo
    cases gives
    cases givesToo
    rw [ScopeEntry.columns_raised top]
    refine ⟨FoundColumn.typed_raised .., ?_⟩
    rintro rfl
    rw [FoundColumn.map_raised_false]
  · cases gives

/-- An item that is no `*` gives the column that it gave. -/
theorem item_of_single (bounded : hi ≤ env.statement.size)
    (noStar : env.statement.isStar lo hi = false)
    (unqualified : env.statement.starQualifier? lo hi = none) {first later : List ResultColumn}
    (gives : env.item lo hi = .ok first) (givesToo : other.item (lo + n) (hi + n) = .ok later) :
    later.map ResultColumn.typed = first.map ResultColumn.typed ∧ (lost = false → later = first) := by
  rw [Surroundings.item_of_single noStar unqualified] at gives
  rw [Surroundings.item_of_single ((continues.embeds.isStar bounded).trans noStar)
    ((continues.embeds.starQualifier bounded).trans unqualified)] at givesToo
  have follows : ExpressionFollows lost (env.single lo hi) (other.single (lo + n) (hi + n)) :=
    continues.single bounded
  generalize env.single lo hi = outcome, other.single (lo + n) (hi + n) = outcomeToo
    at follows gives givesToo
  cases follows with
  | failed finding outcome => cases gives
  | fails outcome finding => cases givesToo
  | untyped => cases gives
  | same name type nullable =>
    cases gives
    cases givesToo
    constructor
    · simp [ResultColumn.typed, name, type]
    · intro none_
      rw [name, type, nullable none_]

/-- The columns of an item are what they were, and those of a `*` are followed by what the rest adds
at statement level. -/
theorem item {more : List ScopeEntry} (entries : other.scope.statementEntries =
      env.scope.statementEntries.map (ScopeEntry.raised lost) ++ more)
    (bounded : hi ≤ env.statement.size) {first later : List ResultColumn}
    (gives : env.item lo hi = .ok first) (givesToo : other.item (lo + n) (hi + n) = .ok later) :
    later.map ResultColumn.typed =
        (first ++ env.statement.starColumns more (lo, hi)).map ResultColumn.typed ∧
      (lost = false → later = first ++ env.statement.starColumns more (lo, hi)) := by
  cases star : env.statement.isStar lo hi with
  | true =>
    rw [Surroundings.item_of_star star] at gives
    rw [Surroundings.item_of_star ((continues.embeds.isStar bounded).trans star), entries] at givesToo
    cases gives
    cases givesToo
    have kept : (env.scope.statementEntries.map (ScopeEntry.raised lost)).flatMap ScopeEntry.columns =
        (env.scope.statementEntries.flatMap ScopeEntry.columns).map (FoundColumn.raised lost) := by
      rw [List.flatMap_map, List.map_flatMap]
      exact List.flatMap_congr fun entry member =>
        ScopeEntry.columns_raised (eq_of_beq (List.mem_filter.mp member).2)
    rw [Statement.starColumns, if_pos star, List.flatMap_append, kept, List.map_append]
    constructor
    · rw [List.map_append, List.map_append, FoundColumn.typed_raised]
    · rintro rfl
      rw [FoundColumn.map_raised_false]
  | false =>
    rw [Statement.starColumns, if_neg (by simp [star]), List.append_nil]
    cases qualified : env.statement.starQualifier? lo hi with
    | some qualifier =>
      exact continues.item_of_starQualifier entries bounded qualified gives givesToo
    | none => exact continues.item_of_single bounded star qualified gives givesToo

end Surroundings.Continues

end AnnotatedSql
