import AnnotatedSql.Proofs.Statement.Embedded

/-!
# Names and tables within statements

The names, types, lists and references that are read from an inner statement are read from the outer
one, as many tokens further on, and so are the steps that build its scope.
-/

namespace AnnotatedSql

/-- The reference, `n` tokens further on. -/
def TableReference.moved (n : Nat) (reference : TableReference) : TableReference :=
  { reference with
    relation := reference.relation.map fun (name, i) => (name, i + n)
    start := reference.start + n
    next := reference.next + n }

/-- The source, `n` tokens further on. -/
def InsertSource.moved (n : Nat) (source : InsertSource) : InsertSource :=
  { columns := source.columns.map (List.map (movedRange n))
    rows := source.rows.map (movedRange n) }

/-- The step, `n` tokens further on and within the query `outer`. -/
def ScopeStep.moved (n : Nat) (outer : Option Nat) : ScopeStep → ScopeStep
  | table reference nullable => .table (reference.moved n) nullable
  | absent context => .absent (movedContext n outer context)
  | insertion reference source => .insertion (reference.moved n) (source.moved n)

namespace Statement

/-! ## Where references end -/

section Bounds

variable {s : Statement} (paired : s.Paired) {i : Nat} {reference : TableReference}

include paired

theorem Paired.aliasAt_bounds (inside : i ≤ s.size) : (s.aliasAt i).2 ≤ s.size := by
  unfold aliasAt
  dsimp only
  split
  next name next written =>
    refine paired.skipGroup_bounds ?_
    split at written
    · obtain ⟨first, found, same⟩ := Option.map_eq_some_iff.mp written
      cases same
      exact lt_size_of_name found
    · split at written
      · obtain ⟨first, found, same⟩ := Option.map_eq_some_iff.mp written
        cases same
        exact lt_size_of_name found
      · cases written
  · exact inside

theorem Paired.relationReference_bounds (found : s.relationReference? i = some reference) :
    reference.next ≤ s.size := by
  obtain ⟨⟨name, after⟩, read, rfl⟩ := Option.map_eq_some_iff.mp found
  exact paired.aliasAt_bounds (objectName_bounds read).2

theorem Paired.groupReference_bounds {start : Nat}
    (found : s.groupReference? start i = some reference) : reference.next ≤ s.size := by
  obtain ⟨closing, read, rfl⟩ := Option.map_eq_some_iff.mp found
  exact paired.aliasAt_bounds (paired.partner_lt read)

theorem Paired.tableReference_bounds (found : s.tableReference? i = some reference) :
    reference.next ≤ s.size := by
  cases tableForm_of_read found with
  | group _ read | call _ _ read => exact paired.groupReference_bounds read
  | relation _ read => exact paired.relationReference_bounds read

end Bounds

theorem Levelled.le_skipGroup {s : Statement} (levelled : s.Levelled) (next : Nat) :
    next ≤ s.skipGroup next := by
  unfold skipGroup
  split
  next opens =>
    split
    next paired => exact Nat.le_succ_of_le (Nat.le_of_lt (levelled.level_of_partner opens paired).1)
    · exact Nat.le_refl _
  · exact Nat.le_refl _

theorem le_arraySuffixes {s : Statement} (fuel next : Nat) :
    next ≤ (s.arraySuffixes fuel next).2 := by
  induction fuel generalizing next with
  | zero => exact Nat.le_refl _
  | succ fuel ih =>
    unfold arraySuffixes
    dsimp only
    split
    · have later : next < if s.is (next + 1) .number then next + 2 else next + 1 := by
        split <;> omega
      generalize (if s.is (next + 1) .number then next + 2 else next + 1) = closing at later ⊢
      split
      · have := ih (closing + 1)
        dsimp only
        omega
      · exact Nat.le_refl _
    · exact Nat.le_refl _

/-- A type name ends after it begins. -/
theorem Levelled.typeName_later {s : Statement} (levelled : s.Levelled) {i : Nat} {type : TypeName}
    (found : s.typeName? i = some type) : i < type.hi := by
  obtain ⟨first, read, same⟩ := Option.bind_eq_some_iff.mp found
  have dots := followTypeDots_bounds s.size first (lt_size_of_typeWord read)
  have words := completeType_bounds (s.followTypeDots s.size first (i + 1)).1 dots.2
  cases same
  exact Nat.lt_of_lt_of_le (Nat.lt_of_succ_le (Nat.le_trans dots.1 words.1))
    (Nat.le_trans (levelled.le_skipGroup _) (le_arraySuffixes _ _))

theorem Levelled.le_aliasAt {s : Statement} (levelled : s.Levelled) (i : Nat) :
    i ≤ (s.aliasAt i).2 := by
  unfold aliasAt
  dsimp only
  split
  next name next written =>
    refine Nat.le_trans ?_ (levelled.le_skipGroup next)
    split at written
    · obtain ⟨first, _, same⟩ := Option.map_eq_some_iff.mp written
      cases same
      omega
    · split at written
      · obtain ⟨first, _, same⟩ := Option.map_eq_some_iff.mp written
        cases same
        omega
      · cases written
  · exact Nat.le_refl _

theorem skipTableWords_bounds {s : Statement} {fuel i : Nat} (inside : i ≤ s.size) :
    i ≤ s.skipTableWords fuel i ∧ s.skipTableWords fuel i ≤ s.size := by
  induction fuel generalizing i with
  | zero => exact ⟨Nat.le_refl _, inside⟩
  | succ fuel ih =>
    unfold skipTableWords
    split
    next word =>
      obtain ⟨keyword, _, found⟩ := List.any_eq_true.mp word
      have further := ih (show i + 1 ≤ s.size from lt_size_of_keyword found)
      omega
    · exact ⟨Nat.le_refl _, inside⟩

/-- A reference ends after it begins. -/
theorem Levelled.tableReference_later {s : Statement} (levelled : s.Levelled) {i : Nat}
    {reference : TableReference} (inside : i ≤ s.size)
    (found : s.tableReference? i = some reference) : i < reference.next := by
  have group : ∀ {start opening : Nat}, s.is opening .parenOpen = true →
      s.groupReference? start opening = some reference → opening < reference.next := by
    intro start opening opens read
    obtain ⟨closing, paired, rfl⟩ := Option.map_eq_some_iff.mp read
    have later := (levelled.level_of_partner opens paired).1
    have := levelled.le_aliasAt (closing + 1)
    dsimp only
    omega
  have words : i ≤ s.skipTableWords s.size i := (skipTableWords_bounds inside).1
  cases tableForm_of_read found with
  | group opens read => exact Nat.lt_of_le_of_lt words (group opens read)
  | call named opens read =>
    have later := (objectName_bounds named).1
    have := group opens read
    omega
  | relation _ read =>
    obtain ⟨⟨other, after⟩, named, rfl⟩ := Option.map_eq_some_iff.mp read
    have := levelled.le_aliasAt after
    have := (objectName_bounds named).1
    dsimp only
    omega

namespace Embeds

variable {n : Nat} {s t : Statement} (embeds : s.Embeds n t) {i : Nat}

include embeds

/-! ## Names and types -/

/-- With fuel enough for the rest of the statements, names are followed alike. -/
theorem followDots {f g : Nat} (name : Name) {next : Nat} (inside : next ≤ s.size)
    (enough : s.size < next + f) (enoughToo : s.size < next + g) :
    t.followDots g name (next + n) =
      ((s.followDots f name next).1, (s.followDots f name next).2 + n) := by
  induction f generalizing g name next with
  | zero => omega
  | succ f ih =>
    obtain ⟨g, rfl⟩ : ∃ less, g = less + 1 := ⟨g - 1, by omega⟩
    unfold Statement.followDots
    rw [embeds.is inside (by simp)]
    split
    next dot =>
      have before := lt_size_of_is dot
      rw [Nat.add_right_comm, embeds.name_after before (by simp [Statement.takesName, dot])]
      cases read : s.name? (next + 1) with
      | none => rfl
      | some part =>
        have := lt_size_of_name read
        rw [Nat.add_right_comm]
        exact ih part (by omega) (by omega) (by omega)
    · rfl

theorem objectName (named : t.name? (i + n) = s.name? i) :
    t.objectName (i + n) = (s.objectName i).map fun (name, after) => (name, after + n) := by
  unfold Statement.objectName
  rw [named]
  cases read : s.name? i with
  | none => rfl
  | some name =>
    have inside := lt_size_of_name read
    have sizes := embeds.size_le
    refine congrArg some ?_
    rw [Nat.add_right_comm]
    exact embeds.followDots name inside (by omega) (by omega)

theorem followTypeDots {f g : Nat} (word : String) {next : Nat} (inside : next ≤ s.size)
    (enough : s.size < next + f) (enoughToo : s.size < next + g) :
    t.followTypeDots g word (next + n) =
      ((s.followTypeDots f word next).1, (s.followTypeDots f word next).2 + n) := by
  induction f generalizing g word next with
  | zero => omega
  | succ f ih =>
    obtain ⟨g, rfl⟩ : ∃ less, g = less + 1 := ⟨g - 1, by omega⟩
    unfold Statement.followTypeDots
    rw [embeds.is inside (by simp)]
    split
    next dot =>
      have before := lt_size_of_is dot
      rw [Nat.add_right_comm, embeds.typeWord_after before (by simp [Statement.takesName, dot])]
      cases read : s.typeWord? (next + 1) with
      | none => rfl
      | some part =>
        have := lt_size_of_typeWord read
        rw [Nat.add_right_comm]
        exact ih part (by omega) (by omega) (by omega)
    · rfl

theorem isTimeZone (inside : i ≤ s.size) {first : String} (other : foldCase first ∉ combiners) :
    t.isTimeZone (i + n) first = s.isTimeZone i first := by
  unfold Statement.isTimeZone
  rw [embeds.isKeyword inside other]
  cases found : s.isKeyword i first with
  | false => simp
  | true =>
    have before := lt_size_of_keyword found
    rw [Nat.add_right_comm, embeds.isKeyword before (by simp [foldCase_eq_ofList])]
    cases second : s.isKeyword (i + 1) "time" with
    | false => simp
    | true =>
      have before := lt_size_of_keyword second
      rw [Nat.add_right_comm, embeds.isKeyword before (by simp [foldCase_eq_ofList])]

theorem completeType (word : String) {next : Nat} (inside : next ≤ s.size) :
    t.completeType word (next + n) =
      ((s.completeType word next).1, (s.completeType word next).2 + n) := by
  unfold Statement.completeType
  have other : ∀ word ∈ ["precision", "varying", "with", "without"], foldCase word ∉ combiners := by
    simp [foldCase_eq_ofList]
  rw [embeds.isKeyword inside (other _ (by simp)), embeds.isKeyword inside (other _ (by simp)),
    embeds.isTimeZone inside (other _ (by simp)), embeds.isTimeZone inside (other _ (by simp))]
  split
  · exact congrArg (Prod.mk _) (Nat.add_right_comm ..)
  split
  · exact congrArg (Prod.mk _) (Nat.add_right_comm ..)
  split
  · exact congrArg (Prod.mk _) (Nat.add_right_comm ..)
  split
  · exact congrArg (Prod.mk _) (Nat.add_right_comm ..)
  split
  · exact congrArg (Prod.mk _) (Nat.add_right_comm ..)
  · rfl

theorem skipGroup {next : Nat} (inside : next ≤ s.size) :
    t.skipGroup (next + n) = s.skipGroup next + n := by
  unfold Statement.skipGroup
  rw [embeds.is inside (by simp)]
  split
  next opens =>
    rw [embeds.partner (lt_size_of_is opens)]
    cases s.partner next with
    | none => rfl
    | some closing => exact Nat.add_right_comm ..
  · rfl

theorem arraySuffixes {f g next : Nat} (inside : next ≤ s.size) (enough : s.size < next + f)
    (enoughToo : s.size < next + g) : t.arraySuffixes g (next + n) =
      ((s.arraySuffixes f next).1, (s.arraySuffixes f next).2 + n) := by
  induction f generalizing g next with
  | zero => omega
  | succ f ih =>
    obtain ⟨g, rfl⟩ : ∃ less, g = less + 1 := ⟨g - 1, by omega⟩
    unfold Statement.arraySuffixes
    rw [embeds.is inside (by simp)]
    split
    next opens =>
      have before := lt_size_of_is opens
      have number := embeds.is before (show TokenKind.number ≠ .ident ∧ _ by simp)
      obtain ⟨closing, here, there, past, later⟩ : ∃ closing,
          (if s.is (next + 1) .number then next + 2 else next + 1) = closing ∧
          (if t.is (next + n + 1) .number then next + n + 2 else next + n + 1) = closing + n ∧
          closing ≤ s.size ∧ next < closing := by
        rw [Nat.add_right_comm next n 1, number]
        cases found : s.is (next + 1) .number with
        | true => exact ⟨next + 2, rfl, Nat.add_right_comm .., lt_size_of_is found, by omega⟩
        | false => exact ⟨next + 1, rfl, rfl, before, by omega⟩
      dsimp only
      rw [here, there, embeds.is past (by simp)]
      split
      next closes =>
        have := lt_size_of_is closes
        rw [Nat.add_right_comm, ih (g := g) (by omega) (by omega) (by omega)]
      · rfl
    · rfl

theorem typeName (word : t.typeWord? (i + n) = s.typeWord? i) :
    t.typeName? (i + n) = (s.typeName? i).map (TypeName.moved n) := by
  unfold typeName?
  rw [word]
  cases read : s.typeWord? i with
  | none => rfl
  | some first =>
    have begins := lt_size_of_typeWord read
    have sizes := embeds.size_le
    have dots := followTypeDots_bounds s.size first (show i + 1 ≤ s.size from begins)
    have words := completeType_bounds (s.followTypeDots s.size first (i + 1)).1 dots.2
    have group := embeds.inner.paired.skipGroup_bounds words.2
    have later := embeds.inner.le_skipGroup
      (s.completeType (s.followTypeDots s.size first (i + 1)).1
        (s.followTypeDots s.size first (i + 1)).2).2
    dsimp only [Option.bind_eq_bind, Option.bind_some]
    rw [Nat.add_right_comm, embeds.followTypeDots (f := s.size) first begins (by omega) (by omega),
      embeds.completeType _ dots.2, embeds.skipGroup words.2,
      embeds.arraySuffixes (f := s.size) group (by omega) (by omega)]
    rfl

theorem columnPath (inside : i < s.size) : t.columnPath? (i + n) =
    (s.columnPath? i).map fun (name, next) => (name, next + n) := by
  unfold columnPath?
  rw [embeds.isClauseKeyword inside, embeds.name inside, Nat.add_right_comm,
    embeds.is (Nat.succ_le_of_lt inside) (by simp)]
  split
  · rfl
  cases s.name? i with
  | none => rfl
  | some name =>
    dsimp only
    split
    next dot =>
      rw [Nat.add_right_comm i n 2, show i + 2 + n = i + 1 + 1 + n from rfl,
        embeds.name_after (lt_size_of_is dot) (by simp [Statement.takesName, dot]),
        show i + 1 + 1 = i + 2 from rfl]
      cases s.name? (i + 2) with
      | none => rfl
      | some column => simp [Nat.add_right_comm]
    · simp [Nat.add_right_comm]

/-! ## Lists -/

theorem itemsFrom {hi fuel start : Nat} (bounded : hi ≤ s.size) :
    t.itemsFrom (hi + n) fuel (start + n) (i + n) =
      (s.itemsFrom hi fuel start i).map (movedRange n) := by
  have last : ∀ start, (if start + n < hi + n then [(start + n, hi + n)] else []) =
      (if start < hi then [(start, hi)] else []).map (movedRange n) := by
    intro start
    by_cases more : start < hi <;> simp [more, movedRange]
  induction fuel generalizing start i with
  | zero => exact last start
  | succ fuel ih =>
    rw [Mirrors.itemsFrom_succ, Mirrors.itemsFrom_succ]
    by_cases before : i < hi
    · have inside := Nat.lt_of_lt_of_le before bounded
      rw [if_pos before, if_pos (Nat.add_lt_add_right before n), embeds.is_inside inside,
        embeds.is_inside inside, embeds.partner inside]
      split
      · cases s.partner i with
        | none => exact ih
        | some closing =>
          dsimp only [Option.map_some]
          rw [Nat.add_right_comm]
          exact ih
      · split
        · rw [List.map_cons, Nat.add_right_comm, ih]
          rfl
        · rw [Nat.add_right_comm]
          exact ih
    · rw [if_neg before, if_neg (by omega)]
      exact last start

theorem splitCommas {lo hi : Nat} (bounded : hi ≤ s.size) :
    t.splitCommas (lo + n) (hi + n) = (s.splitCommas lo hi).map (movedRange n) := by
  unfold Statement.splitCommas
  rw [Nat.add_sub_add_right]
  exact embeds.itemsFrom bounded

theorem valueRows {f g : Nat} (inside : i ≤ s.size) (enough : s.size < i + f)
    (enoughToo : s.size < i + g) :
    t.valueRows g (i + n) = (s.valueRows f i).map (movedRange n) := by
  induction f generalizing g i with
  | zero => omega
  | succ f ih =>
    obtain ⟨g, rfl⟩ : ∃ less, g = less + 1 := ⟨g - 1, by omega⟩
    unfold Statement.valueRows
    rw [embeds.is inside (by simp)]
    split
    next opens =>
      rw [embeds.partner (lt_size_of_is opens)]
      cases paired : s.partner i with
      | none => rfl
      | some closing =>
        have before := embeds.partner_lt paired
        have later := (embeds.inner.level_of_partner opens paired).1
        dsimp only [Option.map_some]
        rw [Nat.add_right_comm, embeds.is before (by simp)]
        split
        next comma =>
          have := lt_size_of_is comma
          rw [Nat.add_right_comm closing n 2, List.map_cons,
            ih (show closing + 2 ≤ s.size by omega) (by omega) (by omega)]
          rfl
        · rfl
    · rfl

theorem insertSource (inside : i ≤ s.size) :
    t.insertSource (i + n) = (s.insertSource i).moved n := by
  have sizes := embeds.size_le
  have list : (if t.is (i + n) .parenOpen then t.partner (i + n) else none) =
      (if s.is i .parenOpen then s.partner i else none).map (· + n) := by
    rw [embeds.is inside (by simp)]
    split
    next opens => exact embeds.partner (lt_size_of_is opens)
    · rfl
  unfold Statement.insertSource
  dsimp only
  rw [list]
  cases found : (if s.is i .parenOpen then s.partner i else none) with
  | none =>
    simp only [Option.map_none, InsertSource.moved]
    rw [embeds.isKeyword inside (by simp [foldCase_eq_ofList])]
    congr 1
    split
    next word =>
      have := lt_size_of_keyword word
      rw [Nat.add_right_comm]
      exact embeds.valueRows (by omega) (by omega) (by omega)
    · rfl
  | some closing =>
    have before : closing < s.size := by
      split at found
      · exact embeds.partner_lt found
      · cases found
    simp only [Option.map_some, InsertSource.moved]
    rw [Nat.add_right_comm closing, embeds.isKeyword before (by simp [foldCase_eq_ofList]),
      Nat.add_right_comm i, embeds.splitCommas (Nat.le_of_lt before)]
    congr 1
    split
    next word =>
      have := lt_size_of_keyword word
      rw [Nat.add_right_comm]
      exact embeds.valueRows (by omega) (by omega) (by omega)
    · rfl

/-! ## References to tables -/

theorem aliasAt (inside : i ≤ s.size) :
    t.aliasAt (i + n) = ((s.aliasAt i).1, (s.aliasAt i).2 + n) := by
  have written : (if t.isKeyword (i + n) "as" then (t.name? (i + n + 1)).map (·, i + n + 2)
      else if t.isWord (i + n) && !t.isClauseKeyword (i + n) then (t.name? (i + n)).map (·, i + n + 1)
      else none) =
      (if s.isKeyword i "as" then (s.name? (i + 1)).map (·, i + 2)
      else if s.isWord i && !s.isClauseKeyword i then (s.name? i).map (·, i + 1)
      else none).map fun (name, next) => (name, next + n) := by
    rw [embeds.isKeyword inside (by simp [foldCase_eq_ofList])]
    split
    next keyword =>
      have before := lt_size_of_keyword keyword
      rw [Nat.add_right_comm i n 1, embeds.name_after before (by simp [Statement.takesName, keyword])]
      simp [Nat.add_right_comm, Function.comp_def]
    rcases Nat.eq_or_lt_of_le inside with rfl | before
    · rw [isWord_past]
      cases clause : t.isClauseKeyword (s.size + n) with
      | false => simp [embeds.isWord_after clause]
      | true => simp
    · rw [embeds.isWord before, embeds.isClauseKeyword before, embeds.name before]
      split
      · simp [Nat.add_right_comm, Function.comp_def]
      · rfl
  unfold Statement.aliasAt
  dsimp only
  rw [written]
  cases found : (if s.isKeyword i "as" then (s.name? (i + 1)).map (·, i + 2)
      else if s.isWord i && !s.isClauseKeyword i then (s.name? i).map (·, i + 1)
      else none) with
  | none => rfl
  | some pair =>
    obtain ⟨name, next⟩ := pair
    have bounded : next ≤ s.size := by
      split at found
      · obtain ⟨first, read, same⟩ := Option.map_eq_some_iff.mp found
        cases same
        exact lt_size_of_name read
      · split at found
        · obtain ⟨first, read, same⟩ := Option.map_eq_some_iff.mp found
          cases same
          exact lt_size_of_name read
        · cases found
    exact congrArg (Prod.mk _) (embeds.skipGroup bounded)

theorem relationReference (named : t.name? (i + n) = s.name? i) :
    t.relationReference? (i + n) = (s.relationReference? i).map (TableReference.moved n) := by
  unfold relationReference?
  rw [embeds.objectName named]
  cases read : s.objectName i with
  | none => rfl
  | some found =>
    obtain ⟨name, after⟩ := found
    obtain ⟨later, inside⟩ := objectName_bounds read
    simp only [Option.map_some, embeds.aliasAt inside, TableReference.moved,
      Nat.sub_add_comm (Nat.one_le_of_lt later)]

theorem groupReference (inside : i < s.size) {start : Nat} :
    t.groupReference? (start + n) (i + n) =
      (s.groupReference? start i).map (TableReference.moved n) := by
  unfold groupReference?
  rw [embeds.partner inside]
  cases paired : s.partner i with
  | none => rfl
  | some closing =>
    have before := embeds.partner_lt paired
    simp only [Option.map_some, Nat.add_right_comm closing n 1,
      embeds.aliasAt (Nat.succ_le_of_lt before), TableReference.moved, Option.map_none]

theorem skipTableWords {f g : Nat} (inside : i ≤ s.size) (enough : s.size < i + f)
    (enoughToo : s.size < i + g) : t.skipTableWords g (i + n) = s.skipTableWords f i + n := by
  induction f generalizing g i with
  | zero => omega
  | succ f ih =>
    obtain ⟨g, rfl⟩ : ∃ less, g = less + 1 := ⟨g - 1, by omega⟩
    unfold Statement.skipTableWords
    rw [embeds.isOneOf inside (by simp [foldCase_eq_ofList])]
    split
    next word =>
      obtain ⟨keyword, _, found⟩ := List.any_eq_true.mp word
      have := lt_size_of_keyword found
      rw [Nat.add_right_comm]
      exact ih (by omega) (by omega) (by omega)
    · rfl

theorem tableReference (inside : i < s.size) :
    t.tableReference? (i + 1 + n) = (s.tableReference? (i + 1)).map (TableReference.moved n) := by
  have sizes := embeds.size_le
  have bounded : s.skipTableWords s.size (i + 1) ≤ s.size :=
    (skipTableWords_bounds (Nat.succ_le_of_lt inside)).2
  unfold tableReference?
  dsimp only
  rw [embeds.skipTableWords (f := s.size) inside (by omega) (by omega)]
  generalize s.skipTableWords s.size (i + 1) = start at bounded
  rw [embeds.is bounded (by simp)]
  split
  next opens => exact embeds.groupReference (lt_size_of_is opens)
  rcases Nat.eq_or_lt_of_le bounded with rfl | before
  · -- the statement is over, so that a word after it begins a query
    have unread : s.objectName s.size = none := by
      rw [Statement.objectName, name_of_not_word isWord_past]
      rfl
    rw [unread, ite_self]
    split
    · rfl
    next free =>
      have named := embeds.name_of_free (Nat.le_refl _) (Bool.eq_false_iff.mpr free)
      rw [embeds.objectName named, unread]
      rfl
  · rw [embeds.isClauseKeyword before]
    split
    · rfl
    rw [embeds.objectName (embeds.name before)]
    cases read : s.objectName start with
    | none => rfl
    | some found =>
      obtain ⟨name, after⟩ := found
      obtain ⟨later, past⟩ := objectName_bounds read
      dsimp only [Option.map_some]
      rw [embeds.is past (by simp)]
      split
      next opens => exact embeds.groupReference (lt_size_of_is opens)
      · exact embeds.relationReference (embeds.name before)

theorem tableList {f g : Nat} (inside : i < s.size) (enough : s.size < i + 1 + f)
    (enoughToo : s.size < i + 1 + g) :
    t.tableList g (i + 1 + n) = (s.tableList f (i + 1)).map (TableReference.moved n) := by
  induction f generalizing g i with
  | zero => omega
  | succ f ih =>
    obtain ⟨g, rfl⟩ : ∃ less, g = less + 1 := ⟨g - 1, by omega⟩
    unfold Statement.tableList
    rw [embeds.tableReference inside]
    cases read : s.tableReference? (i + 1) with
    | none => rfl
    | some reference =>
      have bounded := embeds.inner.paired.tableReference_bounds read
      have later := embeds.inner.tableReference_later inside read
      simp only [Option.map_some, TableReference.moved, List.map_cons]
      rw [embeds.is bounded (by simp)]
      split
      next comma =>
        have := lt_size_of_is comma
        rw [Nat.add_right_comm, ih this (by omega) (by omega)]
      · rfl

/-! ## Steps -/

theorem isClauseLevel (inside : i < s.size) : t.isClauseLevel (i + n) = s.isClauseLevel i := by
  unfold Statement.isClauseLevel
  rw [embeds.enclosing inside]
  cases around : s.enclosing i with
  | none =>
    cases outer : (t.level n).head? with
    | none => rfl
    | some opening => exact embeds.subquery opening outer
  | some opening =>
    exact embeds.opensSubquery (Nat.lt_trans (embeds.inner.before around) inside)

theorem startsStatement (inside : i < s.size) :
    t.startsStatement (i + n) = s.startsStatement i := by
  unfold Statement.startsStatement
  rcases Nat.eq_zero_or_pos i with rfl | later
  · rcases Nat.eq_zero_or_pos n with rfl | further
    · rfl
    · simp [embeds.before further]
  · have first : (i + n == 0) = (i == 0) := by
      rw [beq_eq_false_iff_ne.mpr (by omega), beq_eq_false_iff_ne.mpr (by omega)]
    rw [first, show i + n - 1 = i - 1 + n by omega]
    simp only [embeds.is_inside (Nat.lt_of_le_of_lt (Nat.sub_le i 1) inside)]

theorem isJoin (inside : i < s.size) (kind : String) : t.isJoin (i + n) kind = s.isJoin i kind := by
  unfold Statement.isJoin
  dsimp only
  have side : (if (decide (0 < i + n) && t.isKeyword (i + n - 1) "outer") = true then i + n - 1
      else i + n) =
      (if (decide (0 < i) && s.isKeyword (i - 1) "outer") = true then i - 1 else i) + n := by
    rw [embeds.isKeyword_before (Nat.le_of_lt inside)]
    split
    next outer =>
      have : 0 < i := by simpa using (Bool.and_eq_true_iff.mp outer).1
      omega
    · rfl
  rw [side, embeds.isKeyword_before]
  split
  · exact Nat.le_of_lt (Nat.lt_of_le_of_lt (Nat.sub_le i 1) inside)
  · exact Nat.le_of_lt inside

theorem joinSteps (inside : i < s.size) :
    t.joinSteps (i + n) = (s.joinSteps i).map (ScopeStep.moved n (t.level n).head?) := by
  unfold Statement.joinSteps
  dsimp only
  simp only [embeds.isJoin inside, embeds.queryContext inside]
  rw [Nat.add_right_comm, embeds.tableReference inside, List.map_append]
  congr 1
  · split <;> rfl
  · cases s.tableReference? (i + 1) <;> rfl

theorem scopeStepsAt (inside : i < s.size) :
    t.scopeStepsAt (i + n) = (s.scopeStepsAt i).map (ScopeStep.moved n (t.level n).head?) := by
  have sizes := embeds.size_le
  unfold Statement.scopeStepsAt
  rw [embeds.isClauseLevel inside, embeds.isKeyword_inside inside, embeds.isKeyword_inside inside,
    embeds.isKeyword_inside inside, embeds.isKeyword_inside inside, embeds.startsStatement inside,
    Bool.and_assoc (s.isKeyword i "into"), embeds.isKeyword_before (Nat.le_of_lt inside),
    ← Bool.and_assoc (s.isKeyword i "into")]
  split
  · rfl
  split
  · rw [Nat.add_right_comm, embeds.tableList (f := s.size) inside (by omega) (by omega),
      List.map_map, List.map_map]
    rfl
  split
  · exact embeds.joinSteps inside
  split
  · rw [Nat.add_right_comm, embeds.tableReference inside]
    cases s.tableReference? (i + 1) <;> rfl
  split
  next into =>
    have into : s.isKeyword i "into" = true :=
      (Bool.and_eq_true_iff.mp (Bool.and_eq_true_iff.mp into).1).1
    have named := embeds.name_after inside (by simp [Statement.takesName, into])
    rw [Nat.add_right_comm, embeds.relationReference named]
    cases read : s.relationReference? (i + 1) with
    | none => rfl
    | some reference =>
      have bounded := embeds.inner.paired.relationReference_bounds read
      have source := embeds.insertSource bounded
      simp only [Option.map_some, Option.toList_some, List.map_cons, List.map_nil, ScopeStep.moved,
        ← source]
      rfl
  · rfl

end Embeds

/-- The tokens that a step is about belong to the statement. -/
def StepInside (s : Statement) : ScopeStep → Prop
  | .table reference _ => reference.start < s.size
  | .absent _ => True
  | .insertion reference source => reference.start < s.size ∧
      (∀ items, source.columns = some items → ∀ item ∈ items, item.1 < s.size) ∧
        ∀ row ∈ source.rows, row.2 < s.size

theorem Paired.insertSource_inside {s : Statement} (paired : s.Paired) (i : Nat) :
    (∀ items, (s.insertSource i).columns = some items → ∀ item ∈ items, item.1 < s.size) ∧
      ∀ row ∈ (s.insertSource i).rows, row.2 < s.size := by
  have rows : ∀ fuel i, ∀ row ∈ s.valueRows fuel i, row.2 < s.size := by
    intro fuel
    induction fuel with
    | zero => simp [valueRows]
    | succ fuel ih =>
      intro i row member
      unfold valueRows at member
      split at member
      · split at member
        · cases member
        next closing found =>
          rcases List.mem_cons.mp member with rfl | later
          · exact paired.partner_lt found
          · split at later
            · exact ih _ row later
            · cases later
      · cases member
  constructor
  · intro items listed item member
    obtain ⟨closing, found, rfl⟩ := Option.map_eq_some_iff.mp listed
    have before : closing < s.size := by
      split at found
      · exact paired.partner_lt found
      · cases found
    exact Nat.lt_trans (splitCommas_bounds member).1 before
  · intro row member
    have listed : ∀ (values : Bool) (next : Nat),
        row ∈ (if values then s.valueRows s.size next else []) → row.2 < s.size := by
      intro values next member
      cases values with
      | true => exact rows _ _ row member
      | false => cases member
    exact listed _ _ member

theorem Levelled.scopeSteps_inside {s : Statement} (levelled : s.Levelled) {action : ScopeStep}
    (listed : action ∈ s.scopeSteps) : s.StepInside action := by
  obtain ⟨i, _, listed⟩ := List.mem_flatMap.mp listed
  cases action with
  | table reference nullable => exact (levelled.level_scopeStepsAt listed rfl).2.2.1.1
  | absent context => trivial
  | insertion reference source =>
    refine ⟨(levelled.level_scopeStepsAt listed rfl).2.2.1.1, ?_⟩
    have source_eq : source = s.insertSource reference.next := by
      cases (stepAt_of_mem listed).2
      rfl
    rw [source_eq]
    exact levelled.paired.insertSource_inside _

/-- The steps of an outer statement are those of the tokens before the inner one, those of the inner
one, and those of the tokens after it. -/
theorem Embeds.scopeSteps {n : Nat} {s t : Statement} (embeds : s.Embeds n t) :
    t.scopeSteps = (List.range n).flatMap t.scopeStepsAt ++
      (s.scopeSteps.map (ScopeStep.moved n (t.level n).head?) ++
        (List.range' (s.size + n) (t.size - (s.size + n))).flatMap t.scopeStepsAt) := by
  rw [Statement.scopeSteps, embeds.range_size, List.flatMap_append, List.flatMap_append,
    List.flatMap_map, Statement.scopeSteps, List.map_flatMap,
    List.flatMap_congr fun i member => embeds.scopeStepsAt (List.mem_range.mp member)]

end Statement

end AnnotatedSql
