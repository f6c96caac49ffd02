import AnnotatedSql.Proofs.Resolution.Embedded
import AnnotatedSql.Proofs.Resolution.Tables

/-!
# Scopes of statements that go on

A statement may go on: with another statement, or with a query that it is combined with. The scope
of the whole holds the tables of the beginning and then those that the rest names. An outer join in
the rest may leave out the tables of the beginning. A column of the beginning is found as before, or
it has become ambiguous.
-/

namespace AnnotatedSql

/-- The entry after the rest of the statement. `lost` tells that an outer join there may leave out
what is at statement level. -/
def ScopeEntry.raised (lost : Bool) (entry : ScopeEntry) : ScopeEntry :=
  if lost then entry.leftOut none else entry

/-- The scope `longer` of a statement that goes on after `size` tokens consists of the scope `first`
of its beginning, of which outer joins may leave out what is at statement level, and of what the rest
names. -/
structure Scope.Extends (size : Nat) (lost : Bool) (first longer : Scope) (rest : List ScopeEntry) :
    Prop where
  entries : longer.entries = first.entries.map (ScopeEntry.raised lost) ++ rest
  before : ∀ entry ∈ first.entries, ∀ opening ∈ entry.context, opening < size
  after : ∀ entry ∈ rest, ∀ opening ∈ entry.context, size ≤ opening

/-- The column after the rest of the statement. -/
def FoundColumn.raised (lost : Bool) (found : FoundColumn) : FoundColumn :=
  { found with nullable := found.nullable || lost }

/-! ## Entries -/

namespace ScopeEntry

variable {lost other : Bool} {entry : ScopeEntry}

@[simp] theorem raised_context : (entry.raised lost).context = entry.context := by
  cases lost <;> simp [raised]

@[simp] theorem raised_relation : (entry.raised lost).relation = entry.relation := by
  cases lost <;> simp [raised]

@[simp] theorem raised_answersTo (name : Name) :
    (entry.raised lost).answersTo name = entry.answersTo name := by
  unfold raised leftOut
  split
  · split <;> rfl
  · rfl

theorem raised_leftOut : (entry.raised lost).leftOut none = entry.raised true := by
  cases lost with
  | false => rfl
  | true =>
    by_cases top : entry.context = none <;> simp [raised, leftOut, top]

/-- Only the entries at statement level are left out. -/
theorem raised_of_context (inside : entry.context ≠ none) : entry.raised lost = entry := by
  simp [raised, leftOut, inside]

theorem column_raised (top : entry.context = none) (name : ColumnName) :
    (entry.raised lost).column? name = (entry.column? name).map (FoundColumn.raised lost) := by
  have answers : (entry.raised lost).answersTo = entry.answersTo := funext raised_answersTo
  unfold column?
  rw [answers]
  cases lost <;> simp [raised, leftOut, top, FoundColumn.raised, Function.comp_def,
    apply_ite (Option.map _)]

theorem columns_raised (top : entry.context = none) :
    (entry.raised lost).columns = entry.columns.map (FoundColumn.raised lost) := by
  unfold columns
  cases lost <;> simp [raised, leftOut, top, FoundColumn.raised, Function.comp_def]

end ScopeEntry

@[simp] theorem Scope.moved_zero (scope : Scope) : scope.moved 0 none = scope := by
  have entry : ScopeEntry.moved 0 none = id := by
    funext entry
    simp [ScopeEntry.moved]
  have target : InsertTarget.moved 0 = id := by
    funext target
    have range : movedRange 0 = id := rfl
    simp [InsertTarget.moved, range]
  simp [Scope.moved, entry, target]

/-! ## Steps of the rest -/

namespace Statement

variable {t : Statement} {size i : Nat}

/-- Where nothing is open, nothing at the level of a later token lies in a query that began before. -/
theorem Levelled.queryContext_after (levelled : t.Levelled) (closed : t.level size = [])
    (later : size ≤ i) {j : Nat} (inner : t.ClosesNothing j) (level : t.level j = t.level i) :
    ∀ opening ∈ t.queryContext j, size ≤ opening := by
  intro opening found
  have listed := List.mem_of_find?_eq_some found
  rw [(levelled.enclosers_of_level inner).1, level] at listed
  by_contra before
  have open_ := (mem_level_of_le later listed).resolve_right before
  rw [closed] at open_
  cases open_

/-- An outer join leaves out the tables of its query. -/
theorem absent_of_mem {context : Option Nat} (listed : .absent context ∈ t.scopeStepsAt i) :
    t.isClauseLevel i = true ∧ t.isKeyword i "join" = true ∧ context = t.queryContext i ∧
      (t.isJoin i "right" = true ∨ t.isJoin i "full" = true) := by
  obtain ⟨direct, step⟩ := stepAt_of_mem listed
  cases step with
  | outerJoin word outer => exact ⟨direct, word, rfl, outer⟩

end Statement

namespace Scope

variable {schema : Schema} {t : Statement} {size : Nat} {lost : Bool} {first scope after : Scope}
  {rest : List ScopeEntry}

/-- A step of the rest adds to the rest, or it may leave out what is at statement level. -/
theorem Extends.step {action : ScopeStep} (extended : first.Extends size lost scope rest)
    (levelled : t.Levelled) (closed : t.level size = []) {i : Nat} (later : size ≤ i)
    (listed : action ∈ t.scopeStepsAt i) (stepped : scope.step schema t action = .ok after) :
    ∃ more, first.Extends size (lost || action == .absent none) after more := by
  rcases step_cases stepped with ⟨context, rfl, effect⟩ | ⟨reference, added, brings, effect, place, _⟩
  · obtain ⟨_, join, rfl, _⟩ := Statement.absent_of_mem listed
    have outside := levelled.queryContext_after closed later
      (Statement.closesNothing_of_is (Statement.is_of_keyword join) (by simp)) rfl
    refine ⟨rest.map (ScopeEntry.leftOut (t.queryContext i)), ?_, extended.before,
      fun entry member => ?_⟩
    · rw [effect, extended.entries, List.map_append, List.map_map]
      congr 1
      refine List.map_congr_left fun entry member => ?_
      rw [Function.comp_apply]
      cases context : t.queryContext i with
      | none =>
        rw [ScopeEntry.raised_leftOut]
        simp
      | some opening =>
        have apart : entry.context ≠ some opening := fun same => by
          have := extended.before entry member opening same
          have := outside opening context
          omega
        have noOuter : (ScopeStep.absent (some opening) == .absent none) = false := rfl
        rw [noOuter, Bool.or_false]
        simp [ScopeEntry.leftOut, apart]
    · obtain ⟨old, known, rfl⟩ := List.mem_map.mp member
      rw [ScopeEntry.leftOut_context]
      exact extended.after old known
  · have noOuter : (action == .absent none) = false := by
      rw [beq_eq_false_iff_ne]
      rintro rfl
      cases brings
    obtain ⟨_, _, inner, level⟩ := levelled.level_scopeStepsAt listed brings
    rw [noOuter, Bool.or_false]
    refine ⟨rest ++ added, ?_, extended.before, fun entry member => ?_⟩
    · rw [effect, extended.entries, List.append_assoc]
    · rcases List.mem_append.mp member with old | new
      · exact extended.after entry old
      · rw [place entry new]
        exact levelled.queryContext_after closed later inner level

/-- So do all of them. -/
theorem Extends.run {steps : List ScopeStep} (extended : first.Extends size lost scope rest)
    (levelled : t.Levelled) (closed : t.level size = [])
    (later : ∀ action ∈ steps, ∃ i, size ≤ i ∧ action ∈ t.scopeStepsAt i)
    (built : steps.foldlM (Scope.step schema t) scope = .ok after) :
    ∃ more, first.Extends size (lost || steps.contains (.absent none)) after more := by
  induction steps generalizing scope lost rest with
  | nil =>
    cases built
    exact ⟨rest, by simpa using extended⟩
  | cons action steps ih =>
    rw [List.foldlM_cons] at built
    obtain ⟨middle, stepped, built⟩ := bind_success built
    obtain ⟨i, past, listed⟩ := later action (by simp)
    obtain ⟨more, extended⟩ := extended.step levelled closed past listed stepped
    obtain ⟨most, extended⟩ := ih extended (fun other member => later other (by simp [member])) built
    refine ⟨most, ?_⟩
    rw [List.contains_cons, BEq.comm (b := action), ← Bool.or_assoc]
    exact extended

/-- A query of a statement begins within it. -/
theorem ofStatement_contexts {s : Statement} (levelled : s.Levelled)
    (built : ofStatement schema s = .ok scope) :
    ∀ entry ∈ scope.entries, ∀ opening ∈ entry.context, opening < s.size := by
  refine foldlM_keeps (fun scope => ∀ entry ∈ scope.entries, ∀ opening ∈ entry.context,
    opening < s.size) (fun before after action listed known stepped => ?_) (by simp) built
  obtain ⟨i, _, listed⟩ := List.mem_flatMap.mp listed
  rcases step_cases stepped with ⟨context, rfl, effect⟩ | ⟨reference, added, brings, effect, place, _⟩
  · intro entry member opening found
    rw [effect] at member
    obtain ⟨old, earlier, rfl⟩ := List.mem_map.mp member
    exact known old earlier opening (ScopeEntry.leftOut_context ▸ found)
  · intro entry member opening found
    rw [effect] at member
    rcases List.mem_append.mp member with old | new
    · exact known entry old opening found
    · obtain ⟨_, _, inner, _⟩ := levelled.level_scopeStepsAt listed brings
      rw [place entry new] at found
      have around := List.mem_of_find?_eq_some found
      rw [(levelled.enclosers_of_level inner).1] at around
      exact Nat.lt_trans (Statement.level_mem around).1 inner.1

/-- At statement level the rest may add to what is known. -/
theorem Extends.statementEntries {longer : Scope} (extended : first.Extends size lost longer rest) :
    longer.statementEntries =
    first.statementEntries.map (ScopeEntry.raised lost) ++ rest.filter (·.context == none) := by
  have same : ((·.context == none) : ScopeEntry → Bool) ∘ ScopeEntry.raised lost =
      (·.context == none) :=
    funext fun entry => congrArg (· == none) ScopeEntry.raised_context
  unfold Scope.statementEntries
  rw [extended.entries, List.filter_append, List.filter_map, same]

theorem Extends.tables {longer : Scope} (extended : first.Extends size lost longer rest) :
    longer.tables = first.tables ++ (rest.filter (·.context == none)).map (·.relation) := by
  unfold Scope.tables
  rw [extended.statementEntries, List.map_append, List.map_map]
  congr 2
  exact funext fun entry => ScopeEntry.raised_relation

/-- The scope of a statement that goes on extends that of its beginning. -/
theorem ofStatement_continued {s : Statement} (embeds : s.Embeds 0 t) {longer : Scope}
    (built : ofStatement schema t = .ok longer) :
    ∃ first rest, ofStatement schema s = .ok first ∧ first.Extends s.size
      (((List.range' s.size (t.size - s.size)).flatMap t.scopeStepsAt).contains (.absent none))
      longer rest ∧ (rest.filter (·.context == none)).map (·.relation) =
        t.tablesIn schema s.size (t.size - s.size) := by
  have outer : (t.level 0).head? = none := rfl
  unfold ofStatement at built
  rw [embeds.scopeSteps, List.range_zero, List.flatMap_nil, List.nil_append, List.foldlM_append,
    outer] at built
  obtain ⟨middle, begins, built⟩ := bind_success built
  have moved := foldlM_moved embeds schema
  rw [outer, begins] at moved
  cases first : ofStatement schema s with
  | error finding =>
    rw [first] at moved
    cases moved
  | ok first_ =>
    rw [first] at moved
    obtain rfl : middle = first_.moved 0 none := Except.ok.inj moved
    rw [moved_zero] at built
    have kept : ScopeEntry.raised false = id := rfl
    have start : first_.Extends s.size false first_ [] :=
      ⟨by simp [kept], ofStatement_contexts embeds.inner first, by simp⟩
    have closed : t.level s.size = [] := by
      have level := embeds.level (Nat.le_refl s.size)
      rw [embeds.closed] at level
      exact level
    obtain ⟨rest, extended⟩ := start.run embeds.whole closed (fun action listed =>
      have ⟨i, place, listed⟩ := List.mem_flatMap.mp listed
      ⟨i, (List.mem_range'_1.mp place).1, listed⟩) built
    have tables := foldlM_tables built
    rw [extended.tables] at tables
    refine ⟨first_, rest, rfl, by simpa using extended, (List.append_cancel_left tables).trans ?_⟩
    rw [List.filterMap_flatMap]
    rfl

/-! ## Lookups -/

namespace Extends

variable {longer : Scope} (extended : first.Extends size lost longer rest)

include extended

/-- A subquery of the beginning knows what it knew. -/
theorem candidates_inner {opening : Nat} (inside : opening < size) (name : ColumnName) :
    longer.candidates name (some opening) = first.candidates name (some opening) := by
  have none_ : rest.filter (·.context == some opening) = [] := by
    refine List.filter_eq_nil_iff.mpr fun entry member same => ?_
    have := extended.after entry member opening (eq_of_beq same)
    omega
  have same : ((·.context == some opening) : ScopeEntry → Bool) ∘ ScopeEntry.raised lost =
      (·.context == some opening) :=
    funext fun entry => congrArg (· == some opening) ScopeEntry.raised_context
  unfold candidates
  rw [extended.entries, List.filter_append, none_, List.append_nil, List.filter_map, same,
    List.filterMap_map]
  refine List.filterMap_congr fun entry member => ?_
  have place : entry.context = some opening := eq_of_beq (List.mem_filter.mp member).2
  rw [Function.comp_apply, ScopeEntry.raised_of_context (by simp [place])]

theorem candidates_top (name : ColumnName) : ∃ more, longer.candidates name none =
    (first.candidates name none).map (FoundColumn.raised lost) ++ more := by
  have known := extended.statementEntries
  unfold Scope.statementEntries at known
  refine ⟨(rest.filter (·.context == none)).filterMap (·.column? name), ?_⟩
  unfold candidates
  rw [known, List.filterMap_append, List.filterMap_map, List.map_filterMap]
  congr 1
  refine List.filterMap_congr fun entry member => ?_
  exact ScopeEntry.column_raised (eq_of_beq (List.mem_filter.mp member).2) name

theorem lookupIn {name : ColumnName} {found : FoundColumn} {inner : List Nat}
    (inside : ∀ opening ∈ inner, opening < size)
    (known : first.lookupIn name (inner.map some ++ [none]) = .ok found) :
    longer.lookupIn name (inner.map some ++ [none]) = .error .ambiguous ∨
      ∃ other, longer.lookupIn name (inner.map some ++ [none]) = .ok other ∧
        other.column = found.column ∧ (lost = false → other = found) := by
  induction inner with
  | nil =>
    obtain ⟨more, candidates⟩ := extended.candidates_top name
    simp only [List.map_nil, List.nil_append, Scope.lookupIn] at known ⊢
    split at known
    · cases known
    next only alone =>
      cases known
      rw [candidates, alone]
      cases more with
      | nil => exact Or.inr ⟨_, rfl, rfl, by rintro rfl; simp [FoundColumn.raised]⟩
      | cons _ _ => exact Or.inl rfl
    · cases known
  | cons opening inner ih =>
    simp only [List.map_cons, List.cons_append, Scope.lookupIn] at known ⊢
    rw [extended.candidates_inner (inside opening (by simp))]
    split at known
    · exact ih (fun other member => inside other (by simp [member])) known
    · cases known
      exact Or.inr ⟨_, rfl, rfl, fun _ => rfl⟩
    · cases known

end Extends

/-- A column of the beginning that is known alone is found as it is there, or it is ambiguous. -/
theorem Extends.lookup {s : Statement} {longer : Scope} (embeds : s.Embeds 0 t)
    (extended : first.Extends s.size lost longer rest) {i : Nat} (inside : i < s.size)
    {name : ColumnName} {found : FoundColumn} (known : first.lookup s i name = .ok found) :
    longer.lookup t i name = .error .ambiguous ∨ ∃ other, longer.lookup t i name = .ok other ∧
      other.column = found.column ∧ (lost = false → other = found) := by
  have same : t.contexts i = s.contexts i := by
    have subqueries := embeds.subqueries inside
    rw [Nat.add_zero, Statement.level_zero, List.filter_nil, List.append_nil] at subqueries
    simp [Statement.contexts, subqueries]
  unfold Scope.lookup at known ⊢
  rw [same]
  refine extended.lookupIn (fun opening member => ?_) known
  exact embeds.enclosers_lt (List.mem_filter.mp member).1 inside

end Scope

end AnnotatedSql
