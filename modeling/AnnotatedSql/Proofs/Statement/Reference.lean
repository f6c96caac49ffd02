import AnnotatedSql.Proofs.Statement.Level

/-!
# Levels of references

A reference to a table is read at one level: whatever it passes over, words, dots and whole pairs of
parentheses, it ends at the level that it began at. So all tables of a list stand at the level of the
word before the list, and those of a subquery never stand at statement level.
-/

namespace AnnotatedSql

namespace Statement

variable {s : Statement} {i : Nat}

/-! ## Single tokens -/

/-- A token of another kind than a parenthesis keeps the level. -/
theorem level_of_is {kind : TokenKind} (found : s.is i kind = true) (noOpen : kind ≠ .parenOpen)
    (noClose : kind ≠ .parenClose) : s.level (i + 1) = s.level i :=
  level_of_plain (is_eq_false found noOpen) (is_eq_false found noClose)

theorem level_of_keyword {keyword : String} (found : s.isKeyword i keyword = true) :
    s.level (i + 1) = s.level i :=
  level_of_is (is_of_keyword found) (by simp) (by simp)

theorem level_of_word (word : s.isWord i = true) : s.level (i + 1) = s.level i := by
  rcases kind_of_word word with found | found <;>
    exact level_of_is (beq_iff_eq.mpr found) (by simp) (by simp)

theorem level_of_name {name : Name} (found : s.name? i = some name) :
    s.level (i + 1) = s.level i :=
  level_of_word (isWord_of_name found)

theorem isWord_eq_false {kind : TokenKind} (found : s.is i kind = true) (other : kind.isWord = false) :
    s.isWord i = false := by
  rw [isWord, eq_of_beq found]
  exact other

theorem closesNothing_of_is {kind : TokenKind} (found : s.is i kind = true)
    (noClose : kind ≠ .parenClose) : s.ClosesNothing i :=
  ⟨lt_size_of_is found, is_eq_false found noClose⟩

theorem closesNothing_of_name {name : Name} (found : s.name? i = some name) :
    s.ClosesNothing i := by
  rcases kind_of_word (isWord_of_name found) with found | found <;>
    exact closesNothing_of_is (beq_iff_eq.mpr found) (by simp)

/-! ## Names -/

theorem level_followDots (fuel : Nat) (name : Name) (next : Nat) :
    s.level (s.followDots fuel name next).2 = s.level next := by
  induction fuel generalizing name next with
  | zero => rfl
  | succ fuel ih =>
    unfold followDots
    split
    next dot =>
      split
      next part found =>
        rw [ih, level_of_name found]
        exact level_of_is dot (by simp) (by simp)
      · rfl
    · rfl

theorem level_objectName {name : Name} {after : Nat} (read : s.objectName i = some (name, after)) :
    s.level after = s.level i := by
  obtain ⟨first, found, followed⟩ := Option.map_eq_some_iff.mp read
  have kept := level_followDots (s := s) s.size first (i + 1)
  rw [followed] at kept
  exact kept.trans (level_of_name found)

theorem level_typeWord {word : String} (found : s.typeWord? i = some word) :
    s.level (i + 1) = s.level i :=
  level_of_word (isWord_of_typeWord found)

theorem level_followTypeDots (fuel : Nat) (word : String) (next : Nat) :
    s.level (s.followTypeDots fuel word next).2 = s.level next := by
  induction fuel generalizing word next with
  | zero => rfl
  | succ fuel ih =>
    unfold followTypeDots
    split
    next dot =>
      split
      next part found =>
        rw [ih, level_typeWord found]
        exact level_of_is dot (by simp) (by simp)
      · rfl
    · rfl

theorem level_completeType (word : String) (next : Nat) :
    s.level (s.completeType word next).2 = s.level next := by
  have zone : ∀ {first : String}, s.isTimeZone next first = true →
      s.level (next + 3) = s.level next := by
    intro first found
    simp only [isTimeZone, Bool.and_eq_true] at found
    rw [level_of_keyword found.2, level_of_keyword found.1.2, level_of_keyword found.1.1]
  unfold completeType
  split
  next found => exact level_of_keyword (Bool.and_eq_true_iff.mp found).2
  split
  next found => exact level_of_keyword (Bool.and_eq_true_iff.mp found).2
  split
  next found => exact zone (Bool.and_eq_true_iff.mp found).2
  split
  next found => exact zone (Bool.and_eq_true_iff.mp found).2
  split
  next found => exact zone (Bool.and_eq_true_iff.mp found).2
  · rfl

theorem level_arraySuffixes (fuel next : Nat) :
    s.level (s.arraySuffixes fuel next).2 = s.level next := by
  induction fuel generalizing next with
  | zero => rfl
  | succ fuel ih =>
    unfold arraySuffixes
    split
    next opens =>
      have size : s.level (if s.is (next + 1) .number then next + 2 else next + 1) =
          s.level next := by
        have first := level_of_is opens (by simp) (by simp)
        split
        next number => rw [level_of_is number (by simp) (by simp), first]
        · exact first
      dsimp only
      generalize (if s.is (next + 1) .number then next + 2 else next + 1) = closing at size ⊢
      split
      next closes => rw [ih, level_of_is closes (by simp) (by simp), size]
      · rfl
    · rfl

theorem level_skipTableWords (fuel i : Nat) : s.level (s.skipTableWords fuel i) = s.level i := by
  induction fuel generalizing i with
  | zero => rfl
  | succ fuel ih =>
    unfold skipTableWords
    split
    next word =>
      obtain ⟨keyword, _, found⟩ := List.any_eq_true.mp word
      rw [ih, level_of_keyword found]
    · rfl

namespace Levelled

variable (levelled : s.Levelled)

include levelled

theorem level_skipGroup (next : Nat) : s.level (s.skipGroup next) = s.level next := by
  unfold skipGroup
  split
  next opens =>
    split
    next paired => exact (levelled.level_of_partner opens paired).2
    · rfl
  · rfl

/-- A type name ends at the level that it begins at. -/
theorem level_typeName {type : TypeName} (read : s.typeName? i = some type) :
    s.level type.hi = s.level i := by
  obtain ⟨first, found, read⟩ := Option.bind_eq_some_iff.mp read
  cases read
  exact (level_arraySuffixes ..).trans <| (levelled.level_skipGroup _).trans <|
    (level_completeType ..).trans <| (level_followTypeDots ..).trans (level_typeWord found)

theorem level_aliasAt (i : Nat) : s.level (s.aliasAt i).2 = s.level i := by
  unfold aliasAt
  dsimp only
  split
  next written =>
    rw [levelled.level_skipGroup]
    split at written
    next keyword =>
      obtain ⟨name, found, same⟩ := Option.map_eq_some_iff.mp written
      cases same
      rw [level_of_name found, level_of_keyword keyword]
    · split at written
      · obtain ⟨name, found, same⟩ := Option.map_eq_some_iff.mp written
        cases same
        exact level_of_name found
      · cases written
  · rfl

/-! ## References -/

theorem level_relationReference {reference : TableReference}
    (read : s.relationReference? i = some reference) :
    reference.start = i ∧ s.level reference.next = s.level i := by
  obtain ⟨⟨name, after⟩, found, rfl⟩ := Option.map_eq_some_iff.mp read
  exact ⟨rfl, (levelled.level_aliasAt after).trans (level_objectName found)⟩

theorem level_groupReference {reference : TableReference} {start : Nat}
    (opens : s.is i .parenOpen = true) (read : s.groupReference? start i = some reference) :
    reference.start = start ∧ s.level reference.next = s.level i := by
  obtain ⟨closing, paired, rfl⟩ := Option.map_eq_some_iff.mp read
  exact ⟨rfl, (levelled.level_aliasAt (closing + 1)).trans
    (levelled.level_of_partner opens paired).2⟩

/-- A table begins and ends at the level that it is looked for at. -/
theorem level_tableReference {reference : TableReference}
    (read : s.tableReference? i = some reference) :
    s.ClosesNothing reference.start ∧ s.level reference.start = s.level i ∧
      s.level reference.next = s.level i := by
  have words := level_skipTableWords (s := s) s.size i
  have form := tableForm_of_read read
  generalize s.skipTableWords s.size i = start at words form
  cases form with
  | group opens read =>
    obtain ⟨rfl, kept⟩ := levelled.level_groupReference opens read
    exact ⟨closesNothing_of_is opens (by simp), words, kept.trans words⟩
  | call named opens read =>
    obtain ⟨first, begins, _⟩ := Option.map_eq_some_iff.mp named
    obtain ⟨rfl, kept⟩ := levelled.level_groupReference opens read
    exact ⟨closesNothing_of_name begins, words, (kept.trans (level_objectName named)).trans words⟩
  | relation named read =>
    obtain ⟨first, begins, _⟩ := Option.map_eq_some_iff.mp named
    obtain ⟨rfl, kept⟩ := levelled.level_relationReference read
    exact ⟨closesNothing_of_name begins, words, kept.trans words⟩

theorem level_tableList {fuel : Nat} {reference : TableReference}
    (listed : reference ∈ s.tableList fuel i) :
    s.ClosesNothing reference.start ∧ s.level reference.start = s.level i := by
  induction fuel generalizing i with
  | zero => cases listed
  | succ fuel ih =>
    unfold tableList at listed
    split at listed
    · cases listed
    next first read =>
      obtain ⟨inner, begins, ends⟩ := levelled.level_tableReference read
      rcases List.mem_cons.mp listed with rfl | later
      · exact ⟨inner, begins⟩
      · split at later
        next comma =>
          obtain ⟨innerToo, further⟩ := ih later
          exact ⟨innerToo, further.trans ((level_of_is comma (by simp) (by simp)).trans ends)⟩
        · cases later

end Levelled

end Statement

/-! ## Names of relations -/

namespace Statement

variable {s : Statement} {i : Nat} {name : Name}

theorem name_of_followDots (fuel : Nat) {next : Nat} (before : 0 < next)
    (found : s.name? (next - 1) = some name) :
    0 < (s.followDots fuel name next).2 ∧
      s.name? ((s.followDots fuel name next).2 - 1) = some (s.followDots fuel name next).1 := by
  induction fuel generalizing name next with
  | zero => exact ⟨before, found⟩
  | succ fuel ih =>
    unfold followDots
    split
    · split
      next part read => exact ih (Nat.succ_pos _) read
      · exact ⟨before, found⟩
    · exact ⟨before, found⟩

/-- The last part of a dotted name stands before the index after it. -/
theorem name_of_objectName {after : Nat} (read : s.objectName i = some (name, after)) :
    s.name? (after - 1) = some name := by
  obtain ⟨first, found, followed⟩ := Option.map_eq_some_iff.mp read
  have last := (name_of_followDots s.size (Nat.succ_pos i) found).2
  rw [followed] at last
  exact last

theorem name_of_relationReference {first : Nat} {reference : TableReference}
    (read : s.relationReference? first = some reference)
    (names : reference.relation = some (name, i)) : s.name? i = some name := by
  obtain ⟨⟨written, after⟩, found, rfl⟩ := Option.map_eq_some_iff.mp read
  cases names
  exact name_of_objectName found

theorem name_of_tableReference {first : Nat} {reference : TableReference}
    (read : s.tableReference? first = some reference)
    (names : reference.relation = some (name, i)) : s.name? i = some name := by
  have noGroup : ∀ {start opening : Nat}, s.groupReference? start opening ≠ some reference := by
    intro start opening group
    obtain ⟨_, _, rfl⟩ := Option.map_eq_some_iff.mp group
    cases names
  cases tableForm_of_read read with
  | group _ read | call _ _ read => exact absurd read noGroup
  | relation _ read => exact name_of_relationReference read names

end Statement

/-! ## Steps -/

/-- The reference that a step brings into scope. -/
def ScopeStep.reference? : ScopeStep → Option TableReference
  | table reference _ | insertion reference _ => some reference
  | absent _ => none

namespace Statement

variable {s : Statement}

/-- What `count` tokens from `i` on do to the scope. -/
def stepsIn (s : Statement) (i count : Nat) : List ScopeStep :=
  (List.range' i count).flatMap s.scopeStepsAt

theorem scopeSteps_eq : s.scopeSteps = s.stepsIn 0 s.size := by
  rw [scopeSteps, stepsIn, List.range_eq_range']

theorem stepsIn_append (i first rest : Nat) :
    s.stepsIn i (first + rest) = s.stepsIn i first ++ s.stepsIn (i + first) rest := by
  unfold stepsIn
  rw [← List.range'_append_1, List.flatMap_append]

theorem stepsIn_succ (i count : Nat) :
    s.stepsIn i (count + 1) = s.scopeStepsAt i ++ s.stepsIn (i + 1) count := rfl

/-- Only words do something to the scope. -/
theorem is_ident_of_scopeStep {i : Nat} {action : ScopeStep} (listed : action ∈ s.scopeStepsAt i) :
    s.is i .ident = true := by
  cases (stepAt_of_mem listed).2 with
  | from_ word | outerJoin word | join word | update word | insertInto word =>
    exact is_of_keyword word

/-- What a step brings into scope is read at some token. -/
theorem read_of_mem {i : Nat} {action : ScopeStep} {reference : TableReference}
    (listed : action ∈ s.scopeStepsAt i) (brings : action.reference? = some reference) :
    ∃ j, s.tableReference? j = some reference ∨ s.relationReference? j = some reference := by
  cases (stepAt_of_mem listed).2 with
  | from_ _ member =>
    cases brings
    exact (read_of_mem_tableList member).imp fun _ => Or.inl
  | outerJoin _ _ => cases brings
  | join _ read =>
    cases brings
    exact ⟨_, Or.inl read⟩
  | update _ read =>
    cases brings
    exact ⟨_, Or.inl read⟩
  | insertInto _ _ read =>
    cases brings
    exact ⟨_, Or.inr read⟩

/-- The relation that a step names is the name at its token. -/
theorem name_of_scopeSteps {i : Nat} {action : ScopeStep} {reference : TableReference} {name : Name}
    (listed : action ∈ s.scopeSteps) (brings : action.reference? = some reference)
    (names : reference.relation = some (name, i)) : s.name? i = some name := by
  obtain ⟨_, _, listed⟩ := List.mem_flatMap.mp listed
  obtain ⟨_, read | read⟩ := read_of_mem listed brings
  · exact name_of_tableReference read names
  · exact name_of_relationReference read names

/-- Rows are taken by an `INSERT INTO` that stands directly in a query. -/
theorem insertion_of_mem {i : Nat} {reference : TableReference} {source : InsertSource}
    (listed : .insertion reference source ∈ s.scopeStepsAt i) :
    s.isClauseLevel i = true ∧ s.isKeyword i "into" = true ∧ 0 < i ∧
      s.isKeyword (i - 1) "insert" = true := by
  obtain ⟨direct, step⟩ := stepAt_of_mem listed
  cases step with
  | insertInto word after _ => exact ⟨direct, word, after⟩

end Statement

namespace Statement.Levelled

variable {s : Statement} (levelled : s.Levelled) {i : Nat} {action : ScopeStep}
  {reference : TableReference}

include levelled

/-- What a word brings into scope stands at the level of the word. -/
theorem level_scopeStepsAt (listed : action ∈ s.scopeStepsAt i)
    (brings : action.reference? = some reference) :
    s.isClauseLevel i = true ∧ s.is i .ident = true ∧
      s.ClosesNothing reference.start ∧ s.level reference.start = s.level i := by
  obtain ⟨direct, step⟩ := stepAt_of_mem listed
  have word := is_ident_of_scopeStep listed
  have level : s.level (i + 1) = s.level i := level_of_is word (by simp) (by simp)
  refine ⟨direct, word, ?_⟩
  cases step with
  | from_ _ member =>
    cases brings
    obtain ⟨inner, begins⟩ := levelled.level_tableList member
    exact ⟨inner, begins.trans level⟩
  | outerJoin _ _ => cases brings
  | join _ read =>
    cases brings
    obtain ⟨inner, begins, _⟩ := levelled.level_tableReference read
    exact ⟨inner, begins.trans level⟩
  | update _ read =>
    cases brings
    obtain ⟨inner, begins, _⟩ := levelled.level_tableReference read
    exact ⟨inner, begins.trans level⟩
  | insertInto _ _ read =>
    cases brings
    obtain ⟨⟨name, after⟩, named, rfl⟩ := Option.map_eq_some_iff.mp read
    obtain ⟨first, begins, _⟩ := Option.map_eq_some_iff.mp named
    exact ⟨closesNothing_of_name begins, level⟩

/-- What a word in a subquery brings into scope belongs to that subquery. -/
theorem queryContext_of_inside {opening : Nat} {outer : List Nat}
    (listed : action ∈ s.scopeStepsAt i) (brings : action.reference? = some reference)
    (inside : s.level i = opening :: outer) :
    s.queryContext reference.start = some opening := by
  obtain ⟨direct, word, inner, level⟩ := levelled.level_scopeStepsAt listed brings
  have around := (levelled.enclosers_of_level (closesNothing_of_is word (by simp))).2
  have subquery : s.opensSubquery opening = true := by
    rw [isClauseLevel, around, inside] at direct
    exact direct
  rw [queryContext, (levelled.enclosers_of_level inner).1, level, inside,
    List.find?_cons_of_pos subquery]

end Statement.Levelled

end AnnotatedSql
