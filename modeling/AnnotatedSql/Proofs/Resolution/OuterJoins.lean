import AnnotatedSql.Proofs.Resolution.Continued
import AnnotatedSql.Proofs.Statement.FromScan
import Mathlib.Data.List.Induction

/-!
# Outer joins of a chain

A chain of joins at statement level brings its tables into scope in the order of the text. A left or
full join may leave out the table it adds, a right or full join the tables before it. What stands
within parentheses, such as a subquery in a condition, has no part in this.
-/

namespace AnnotatedSql

/-! ## The words before `JOIN` -/

/-- The sides of outer joins. -/
def outerSides : List String := ["left", "right", "full"]

/-- The words of outer joins. -/
def outerWords : List String := "outer" :: outerSides

/-- The run ends in a word that could be taken for the side of a join. -/
def EndsInSide (run : List Lexeme) : Prop := ∃ last ∈ run.getLast?, last.isOneOf outerWords = true

instance (run : List Lexeme) : Decidable (EndsInSide run) :=
  match last : run.getLast? with
  | none => isFalse (by simp [EndsInSide, last])
  | some lexeme => decidable_of_iff (lexeme.isOneOf outerWords = true) (by simp [EndsInSide, last])

namespace JoinSpelling

/-- Whether the word stands before `JOIN`. -/
def isSide (join : JoinSpelling) (side : String) : Bool := join.words.any (·.isKeyword side)

/-- Whether the added table may be absent from a row. -/
def dropsAdded (join : JoinSpelling) : Bool := join.isSide "left" || join.isSide "full"

/-- Whether the tables before may be absent from a row. -/
def dropsEarlier (join : JoinSpelling) : Bool := join.isSide "right" || join.isSide "full"

end JoinSpelling

namespace Statement

variable {s : Statement} {i : Nat} {kind : String}

/-- The kind of a join is read off the word before it. -/
theorem isJoin_of_last (last : s.isKeyword i "outer" = false) :
    s.isJoin (i + 1) kind = s.isKeyword i kind := by
  simp [isJoin, last]

/-- Before `OUTER` it is the word before that. -/
theorem isJoin_of_outer (last : s.isKeyword (i + 1) "outer" = true) :
    s.isJoin (i + 2) kind = s.isKeyword i kind := by
  simp [isJoin, last]

/-- After a word that is no side of a join, the kind is what the words before `JOIN` say. -/
theorem HasAt.isJoin_side {previous : Lexeme} {words : List Lexeme} {side : List String}
    (stands : s.HasAt i (previous :: words)) (free : previous.isOneOf outerWords = false)
    (isSide : side ∈ joinSides) (spelled : SpellKeywords words side) (listed : kind ∈ outerSides) :
    s.isJoin (i + 1 + words.length) kind = words.any (·.isKeyword kind) := by
  have shapes : ∀ side ∈ joinSides, side.length ≤ 2 ∧
      (∀ word ∈ side.head?, foldCase word ≠ foldCase "outer") ∧
      (∀ word ∈ side.tail.head?, foldCase word = foldCase "outer") := by
    simp [joinSides, foldCase_eq_ofList]
  obtain ⟨short, first, second⟩ := shapes side isSide
  have known : ∀ kind ∈ outerSides, kind ∈ outerWords := by decide
  have apart : ∀ kind ∈ outerSides, foldCase "outer" ≠ foldCase kind := by
    simp [outerSides, foldCase_eq_ofList]
  cases spelled with
  | nil =>
    -- the word before `JOIN` is the one before the join
    have noOuter : s.isKeyword i "outer" = false :=
      (stands.isKeyword _).trans (Lexeme.isKeyword_of_isOneOf free (by decide))
    rw [List.length_nil, Nat.add_zero, isJoin_of_last noOuter, stands.isKeyword,
      Lexeme.isKeyword_of_isOneOf free (known kind listed)]
    rfl
  | @cons word keyword words keywords found spelled =>
    have here := stands.tail
    have noOuter : word.isKeyword "outer" = false := Lexeme.isKeyword_eq_false found (first _ rfl)
    cases spelled with
    | nil =>
      have last : s.isKeyword (i + 1) "outer" = false := (here.isKeyword _).trans noOuter
      rw [List.length_singleton, isJoin_of_last last, here.isKeyword]
      simp
    | @cons outer keyword words keywords foundToo spelled =>
      have isOuter : outer.isKeyword "outer" = true := by
        simp only [Lexeme.isKeyword, Bool.and_eq_true, equalFold_iff] at foundToo ⊢
        exact ⟨foundToo.1, foundToo.2.trans (second _ rfl)⟩
      have other : outer.isKeyword kind = false :=
        Lexeme.isKeyword_eq_false isOuter (apart kind listed)
      cases spelled with
      | nil =>
        have last : s.isKeyword (i + 1 + 1) "outer" = true := (here.tail.isKeyword _).trans isOuter
        rw [show i + 1 + [word, outer].length = i + 1 + 2 from rfl, isJoin_of_outer last,
          here.isKeyword]
        simp [other]
      | cons => exact absurd short (by simp)

/-- So it is with `NATURAL` before them. -/
theorem HasAt.isJoin {previous : Lexeme} {join : JoinSpelling}
    (stands : s.HasAt i (previous :: join.words)) (free : previous.isOneOf outerWords = false)
    (listed : kind ∈ outerSides) :
    s.isJoin (i + 1 + join.words.length) kind = join.isSide kind := by
  obtain ⟨natural, isNatural, side, isSide, spelled⟩ := join.kinds
  unfold JoinSpelling.isSide
  generalize join.words = words at stands spelled ⊢
  rcases List.mem_cons.mp isNatural with rfl | isNatural
  · exact stands.isJoin_side free isSide spelled listed
  · obtain rfl := List.mem_singleton.mp isNatural
    cases spelled with
    | @cons word keyword words keywords found spelled =>
      have other : ∀ kind ∈ outerWords, word.isKeyword kind = false := by
        have apart : ∀ kind ∈ outerWords, foldCase "natural" ≠ foldCase kind := by
          simp [outerWords, outerSides, foldCase_eq_ofList]
        exact fun kind member => Lexeme.isKeyword_eq_false found (apart kind member)
      have freeToo : word.isOneOf outerWords = false :=
        List.any_eq_false.mpr fun kind member => by simp [other kind member]
      have known : ∀ kind ∈ outerSides, kind ∈ outerWords := by decide
      have kinds := stands.tail.isJoin_side freeToo isSide spelled listed
      rw [List.any_cons, other kind (known kind listed), Bool.false_or, ← kinds, List.length_cons,
        Nat.add_comm words.length, ← Nat.add_assoc]

end Statement

/-! ## Entries at statement level -/

/-- The entry of a table at statement level. -/
def TableSpelling.entry (table : TableSpelling) (relation : Relation) (nullable : Bool) : ScopeEntry :=
  { relation, aliasName := table.aliasName.name?, nullable, context := none }

/-- The entries after a join: those before it, of which it may leave out all, and that of its table. -/
def JoinSpelling.extend (schema : Schema) (entries : List ScopeEntry) (join : JoinSpelling) :
    List ScopeEntry :=
  (if join.dropsEarlier then entries.map (ScopeEntry.leftOut none) else entries) ++
    ((join.table.relation? schema).map (join.table.entry · join.dropsAdded)).toList

namespace Statement

variable {schema : Schema} {s : Statement} {i count : Nat} {steps more : List ScopeStep}
  {change next : List ScopeEntry → List ScopeEntry}

/-- The fault is one of what a word within parentheses brings into scope. -/
def FailsInside (schema : Schema) (s : Statement) (finding : Finding) : Prop :=
  ∃ i, s.isTop i = false ∧ ∃ action ∈ s.scopeStepsAt i, ∃ scope,
    Scope.step schema s scope action = .error finding

/-- The steps change the entries at statement level as told, unless one within parentheses fails. -/
def Changes (schema : Schema) (s : Statement) (steps : List ScopeStep)
    (change : List ScopeEntry → List ScopeEntry) : Prop :=
  ∀ scope : Scope, match steps.foldlM (Scope.step schema s) scope with
    | .ok after => after.statementEntries = change scope.statementEntries
    | .error finding => s.FailsInside schema finding

namespace Changes

theorem nil : s.Changes schema [] id := fun _ => rfl

theorem append (first : s.Changes schema steps change) (rest : s.Changes schema more next) :
    s.Changes schema (steps ++ more) (next ∘ change) := by
  intro scope
  rw [List.foldlM_append]
  have firstEffect := first scope
  cases ran : steps.foldlM (Scope.step schema s) scope with
  | error finding =>
    rw [ran] at firstEffect
    exact firstEffect
  | ok middle =>
    rw [ran] at firstEffect
    have restEffect := rest middle
    have same : middle.statementEntries = change scope.statementEntries := firstEffect
    rw [same] at restEffect
    exact restEffect

/-- One step that cannot fail. -/
theorem one {action : ScopeStep} (succeeds : ∀ scope, ∃ after,
    Scope.step schema s scope action = .ok after ∧
      after.statementEntries = change scope.statementEntries) :
    s.Changes schema [action] change := by
  intro scope
  obtain ⟨after, stepped, effect⟩ := succeeds scope
  rw [List.foldlM_cons, stepped]
  exact effect

theorem all (each : ∀ action ∈ steps, s.Changes schema [action] id) : s.Changes schema steps id := by
  induction steps with
  | nil => exact nil
  | cons action steps ih =>
    exact (each action (by simp)).append (ih fun other member => each other (by simp [member]))

end Changes

/-- An outer join at statement level may leave out what is there. -/
theorem changes_absent : s.Changes schema [.absent none] (List.map (ScopeEntry.leftOut none)) := by
  refine .one fun scope => ⟨_, rfl, ?_⟩
  have same : ((·.context == none) : ScopeEntry → Bool) ∘ ScopeEntry.leftOut none =
      (·.context == none) :=
    funext fun entry => congrArg (· == none) ScopeEntry.leftOut_context
  unfold Scope.statementEntries
  rw [← same, ← List.filter_map, same]
  rfl

/-- A known table at statement level is added to what is there. -/
theorem changes_table {reference : TableReference} {table : TableSpelling} {relation : Relation}
    {nullable : Bool} (named : reference.relation.map Prod.fst = table.name.name?)
    (alias_ : reference.aliasName = table.aliasName.name?)
    (known : table.relation? schema = some relation)
    (context : s.queryContext reference.start = none) :
    s.Changes schema [.table reference nullable] (· ++ [table.entry relation nullable]) := by
  obtain ⟨name, spelled, found⟩ := Option.bind_eq_some_iff.mp known
  obtain ⟨⟨other, i⟩, names, same⟩ := Option.map_eq_some_iff.mp (named.trans spelled)
  obtain rfl : other = name := same
  refine .one fun scope =>
    ⟨{ scope with entries := scope.entries ++ [table.entry relation nullable] }, ?_, ?_⟩
  · simp [Scope.step, names, Scope.enter, found, context, alias_, TableSpelling.entry, Except.map]
  · simp [Scope.statementEntries, TableSpelling.entry]

/-! ## Words within parentheses -/

/-- What a word within parentheses brings does not come to statement level. -/
theorem Levelled.changes_inside (levelled : s.Levelled) {action : ScopeStep}
    (listed : action ∈ s.scopeStepsAt i) (inside : s.level i ≠ []) :
    s.Changes schema [action] id := by
  intro scope
  obtain ⟨opening, outer, level⟩ := List.exists_cons_of_ne_nil inside
  have around := levelled.enclosers_of_level
    (closesNothing_of_is (is_ident_of_scopeStep listed) (by simp))
  rw [List.foldlM_cons]
  cases stepped : Scope.step schema s scope action with
  | error finding =>
    refine ⟨i, ?_, action, listed, scope, stepped⟩
    rw [isTop, around.2, level]
    rfl
  | ok after =>
    change after.statementEntries = scope.statementEntries
    unfold Scope.statementEntries
    rcases Scope.step_cases stepped with
      ⟨context, rfl, effect⟩ | ⟨reference, added, brings, effect, place, _⟩
    · obtain ⟨direct, _, rfl, _⟩ := absent_of_mem listed
      have subquery : s.opensSubquery opening = true := by
        rw [isClauseLevel, around.2, level] at direct
        exact direct
      have context : s.queryContext i = some opening := by
        rw [queryContext, around.1, level, List.find?_cons_of_pos subquery]
      rw [effect, context, List.filter_map]
      have same : ((·.context == none) : ScopeEntry → Bool) ∘ ScopeEntry.leftOut (some opening) =
          (·.context == none) :=
        funext fun entry => congrArg (· == none) ScopeEntry.leftOut_context
      rw [same]
      refine (List.map_congr_left fun entry member => ?_).trans (List.map_id _)
      have top : entry.context = none := by simpa using (List.mem_filter.mp member).2
      simp [ScopeEntry.leftOut, top]
    · have context := levelled.queryContext_of_inside listed brings level
      have none_ : added.filter (·.context == none) = [] :=
        List.filter_eq_nil_iff.mpr fun entry member => by simp [place entry member, context]
      rw [effect, List.filter_append, none_, List.append_nil]

/-- What keeps silent leaves the entries at statement level as they are. -/
theorem SilentIn.changes (silent : s.SilentIn i count) (levelled : s.Levelled) :
    s.Changes schema (s.stepsIn i count) id := by
  refine .all fun action listed => ?_
  obtain ⟨k, member, listed⟩ := List.mem_flatMap.mp listed
  obtain ⟨atLeast, below⟩ := List.mem_range'_1.mp member
  rcases silent k atLeast below with inside | none_
  · exact levelled.changes_inside listed inside
  · rw [none_] at listed
    cases listed

/-! ## Chains -/

/-- A table that is read at statement level stands there. -/
theorem Levelled.queryContext_tableReference (levelled : s.Levelled) {reference : TableReference}
    (read : s.tableReference? i = some reference) (top : s.level i = []) :
    s.queryContext reference.start = none := by
  obtain ⟨inner, level, _⟩ := levelled.level_tableReference read
  rw [queryContext, (levelled.enclosers_of_level inner).1, level, top]
  rfl

/-- The word `JOIN` does to the entries what the words before it say. -/
theorem Levelled.changes_joinWord (levelled : s.Levelled) {previous : Lexeme} {join : JoinSpelling}
    (stands : s.HasAt i (previous :: join.words)) (free : previous.isOneOf outerWords = false)
    (word : s.isKeyword (i + 1 + join.words.length) "join" = true)
    (top : s.level (i + 1 + join.words.length) = []) {reference : TableReference}
    (read : s.tableReference? (i + 1 + join.words.length + 1) = some reference)
    (named : reference.relation.map Prod.fst = join.table.name.name?)
    (alias_ : reference.aliasName = join.table.aliasName.name?) {relation : Relation}
    (known : join.table.relation? schema = some relation) :
    s.Changes schema (s.scopeStepsAt (i + 1 + join.words.length)) (join.extend schema ·) := by
  have context := levelled.queryContext_tableReference read ((level_of_keyword word).trans top)
  have kinds : ∀ kind ∈ outerSides,
      s.isJoin (i + 1 + join.words.length) kind = join.isSide kind :=
    fun kind listed => stands.isJoin free listed
  have steps : s.scopeStepsAt (i + 1 + join.words.length) =
      (if join.dropsEarlier then [.absent none] else []) ++
        [.table reference join.dropsAdded] := by
    rw [levelled.scopeStepsAt_join word top, joinSteps, read, kinds "right" (by decide),
      kinds "full" (by decide), kinds "left" (by decide), queryContext,
      (levelled.enclosers_of_level (closesNothing_of_is (is_of_keyword word) (by simp))).1, top]
    rfl
  have added : s.Changes schema [.table reference join.dropsAdded]
      (· ++ [join.table.entry relation join.dropsAdded]) :=
    changes_table named alias_ known context
  have earlier : s.Changes schema (if join.dropsEarlier then [.absent none] else [])
      (if join.dropsEarlier then List.map (ScopeEntry.leftOut none) else id) := by
    split
    · exact changes_absent
    · exact .nil
  rw [steps]
  convert earlier.append added using 1
  funext entries
  cases drops : join.dropsEarlier <;> simp [JoinSpelling.extend, drops, known]

/-- A join at statement level does to the entries what its words say, if the lexeme before it could
not be taken for one of them. -/
theorem Levelled.changes_join (levelled : s.Levelled) {previous : Lexeme} {join : JoinSpelling}
    {rest : List Lexeme} (whole : s.RestAt i (previous :: (join.lexemes ++ rest)))
    (free : previous.isOneOf outerWords = false) (ends : EndsTable rest)
    (known : (join.table.relation? schema).isSome) (top : s.level (i + 1) = []) :
    s.Changes schema (s.stepsIn (i + 1) join.lexemes.length) (join.extend schema ·) ∧
      s.level (i + 1 + join.lexemes.length) = [] := by
  obtain ⟨relation, known⟩ := Option.isSome_iff_exists.mp known
  rw [JoinSpelling.lexemes, List.append_assoc, List.cons_append, List.append_assoc,
    ← List.cons_append] at whole
  have stands := whole.hasAt
  obtain ⟨words, atKeyword⟩ := stands.tail.silent_free join.words_tableless top
  have keyword := whole.right
  rw [List.length_cons, Nat.add_comm join.words.length, ← Nat.add_assoc] at keyword
  have word : s.isKeyword (i + 1 + join.words.length) "join" = true :=
    (keyword.isKeyword "join").trans join.spelled
  obtain ⟨reference, read, _, named, alias_⟩ :=
    keyword.tail.tableReference (JoinCondition.endsTable join.condition ends)
  have joins := levelled.changes_joinWord stands free word atKeyword read named alias_ known
  have operand := keyword.tail
  rw [← List.append_assoc] at operand
  obtain ⟨others, after⟩ := operand.hasAt.silent_free join.operand_tableless
    ((level_of_keyword word).trans atKeyword)
  have length : join.lexemes.length = join.words.length +
      ((join.table.lexemes ++ (join.condition.map JoinCondition.lexemes).getD []).length + 1) := by
    rw [JoinSpelling.lexemes, List.length_append, List.length_cons]
  constructor
  · rw [length, stepsIn_append, stepsIn_succ]
    exact (words.changes levelled).append (joins.append (others.changes levelled))
  · rw [← after, length]
    congr 1
    omega

/-- So do joins one after another. None of the runs that a join follows ends in a word that could be
taken for the side of one. -/
theorem Levelled.changes_joins (levelled : s.Levelled) {run rest : List Lexeme}
    {joins : List JoinSpelling} (written : run ≠ [])
    (whole : s.RestAt i (run ++ (joins.flatMap JoinSpelling.lexemes ++ rest)))
    (plain : ∀ part ∈ (run :: joins.map JoinSpelling.lexemes).dropLast, ¬ EndsInSide part)
    (ends : EndsTable rest) (known : ∀ join ∈ joins, (join.table.relation? schema).isSome)
    (top : s.level (i + run.length) = []) :
    s.Changes schema (s.stepsIn (i + run.length) (joins.flatMap JoinSpelling.lexemes).length)
        (joins.foldl (JoinSpelling.extend schema)) ∧
      s.level (i + run.length + (joins.flatMap JoinSpelling.lexemes).length) = [] := by
  induction joins generalizing i run with
  | nil => exact ⟨.nil, top⟩
  | cons join joins ih =>
    obtain ⟨init, last, rfl⟩ := (List.eq_nil_or_concat' run).resolve_left written
    have length : i + (init ++ [last]).length = i + init.length + 1 := by
      rw [List.length_append, List.length_singleton, Nat.add_assoc]
    rw [List.map_cons, List.dropLast_cons_cons, List.forall_mem_cons] at plain
    have free : last.isOneOf outerWords = false := by
      simpa [EndsInSide] using plain.1
    rw [List.flatMap_cons, List.append_assoc, List.append_assoc] at whole
    rw [length] at top ⊢
    obtain ⟨first, after⟩ := levelled.changes_join whole.right free (endsTable_of_joins joins ends).1
      (known join List.mem_cons_self) top
    have further := whole.right.tail
    have begins : join.lexemes ≠ [] := by simp [JoinSpelling.lexemes]
    obtain ⟨others, last⟩ := ih begins further plain.2
      (fun other member => known other (List.mem_cons_of_mem _ member)) after
    rw [List.flatMap_cons, List.length_append, stepsIn_append, ← Nat.add_assoc]
    exact ⟨first.append others, last⟩

/-- `FROM` at statement level brings the first table of its chain. -/
theorem Levelled.changes_from (levelled : s.Levelled) {chain : JoinChain} {rest : List Lexeme}
    (word : s.isKeyword i "from" = true) (top : s.level i = [])
    (whole : s.RestAt (i + 1) (chain.lexemes ++ rest)) (ends : EndsTable rest)
    (single : ∀ first ∈ rest.head?, first.kind ≠ .comma) {relation : Relation}
    (known : chain.head.relation? schema = some relation) :
    s.Changes schema (s.scopeStepsAt i) (· ++ [chain.head.entry relation false]) := by
  rw [JoinChain.lexemes, List.append_assoc] at whole
  obtain ⟨joinEnds, others⟩ := endsTable_of_joins chain.joins ends
  obtain ⟨reference, read, next, named, alias_⟩ := whole.tableReference joinEnds
  have context := levelled.queryContext_tableReference read ((level_of_keyword word).trans top)
  have noComma : s.is reference.next .comma = false := by
    rw [next]
    exact whole.right.noComma (others fun _ => single)
  have list : s.tableList s.size (i + 1) = [reference] := by
    obtain ⟨size, positive⟩ := Nat.exists_eq_add_of_lt (lt_size_of_keyword word)
    rw [positive, tableList, read]
    simp [noComma]
  rw [levelled.scopeStepsAt_from word top, list]
  exact changes_table named alias_ known context

/-! ## Statements with one chain -/

/-- The only tables at statement level are those of a chain after the `FROM` at token `position`. -/
structure SelectsChain (s : Statement) (position : Nat) (chain : JoinChain) (rest : List Lexeme) :
    Prop where
  from_ : s.isKeyword position "from" = true
  top : s.isTop position = true
  list : s.RestAt (position + 1) (chain.lexemes ++ rest)
  ends : EndsTable rest
  single : ∀ first ∈ rest.head?, first.kind ≠ .comma
  others : ∀ i < s.size, i < position ∨ position + 1 + chain.lexemes.length ≤ i →
    s.isTop i = true → s.isOneOf i ["from", "join", "update", "into"] = false

namespace SelectsChain

variable {position : Nat} {chain : JoinChain} {rest : List Lexeme}
  (selects : s.SelectsChain position chain rest) (levelled : s.Levelled)

include selects levelled

theorem silent_outside
    (outside : ∀ k, i ≤ k → k < i + count → k < position ∨ position + 1 + chain.lexemes.length ≤ k) :
    s.SilentIn i count := by
  intro k atLeast below
  by_cases word : s.is k .ident = true
  · by_cases top : s.level k = []
    · have inner := closesNothing_of_is word (by simp)
      have free := selects.others k inner.1 (outside k atLeast below)
        (levelled.isTop_of_level inner top)
      simp only [isOneOf, List.any_cons, List.any_nil, Bool.or_false, Bool.or_eq_false_iff] at free
      exact Or.inr (by simp [scopeStepsAt, free])
    · exact Or.inl top
  · exact Or.inr (List.eq_nil_iff_forall_not_mem.mpr fun action listed =>
      word (is_ident_of_scopeStep listed))

/-- What the whole statement does to the entries at statement level. -/
theorem changes {relation : Relation}
    (plain : ∀ part ∈ (chain.head.lexemes :: chain.joins.map JoinSpelling.lexemes).dropLast,
      ¬ EndsInSide part)
    (known : chain.head.relation? schema = some relation)
    (others : ∀ join ∈ chain.joins, (join.table.relation? schema).isSome) :
    s.Changes schema s.scopeSteps fun entries =>
      chain.joins.foldl (JoinSpelling.extend schema) (entries ++ [chain.head.entry relation false]) := by
  have inner := closesNothing_of_is (is_of_keyword selects.from_) (by simp)
  have top : s.level position = [] := by
    have outside := selects.top
    rw [isTop, (levelled.enclosers_of_level inner).2] at outside
    simpa using outside
  have whole := selects.list
  rw [JoinChain.lexemes, List.append_assoc] at whole
  obtain ⟨head, after⟩ := whole.hasAt.silent_free chain.head.tableless
    ((level_of_keyword selects.from_).trans top)
  have written : chain.head.lexemes ≠ [] := by
    obtain ⟨first, more, same, _⟩ := qualifiedName_head chain.head.path chain.head.name
    simp [TableSpelling.lexemes, same]
  obtain ⟨joins, _⟩ := levelled.changes_joins written whole plain selects.ends others after
  have before : s.SilentIn 0 position := selects.silent_outside levelled fun k _ _ => by omega
  have size : s.size = position + (chain.head.lexemes.length +
      ((chain.joins.flatMap JoinSpelling.lexemes).length + rest.length) + 1) := by
    have length := congrArg List.length selects.list
    have inside := lt_size_of_keyword selects.from_
    rw [List.length_drop, Array.length_toList, JoinChain.lexemes] at length
    simp only [List.length_append] at length
    unfold size at inside ⊢
    omega
  have last : s.SilentIn (position + 1 + chain.head.lexemes.length +
      (chain.joins.flatMap JoinSpelling.lexemes).length) rest.length := by
    refine selects.silent_outside levelled fun k _ _ => ?_
    rw [JoinChain.lexemes, List.length_append]
    omega
  rw [scopeSteps_eq, size, stepsIn_append, Nat.zero_add, stepsIn_succ, stepsIn_append, stepsIn_append]
  have first := levelled.changes_from selects.from_ top selects.list selects.ends selects.single known
  exact (before.changes levelled).append
    (first.append ((head.changes levelled).append (joins.append (last.changes levelled))))

end SelectsChain

end Statement

/-! ## Positions in a chain -/

/-- A row may lack the table at place `i` of the chain: its own join may leave it out, or a later
one. -/
def JoinChain.MayLack (chain : JoinChain) (i : Nat) : Prop :=
  (∃ k join, i = k + 1 ∧ chain.joins[k]? = some join ∧ join.dropsAdded = true) ∨
    ∃ k join, i ≤ k ∧ chain.joins[k]? = some join ∧ join.dropsEarlier = true

/-- The entries are the tables of the chain in order, nullable where a row may lack them. -/
structure JoinChain.Fills (schema : Schema) (chain : JoinChain) (entries : List ScopeEntry) : Prop where
  length : entries.length = chain.joins.length + 1
  tables : ∀ i table, (chain.head :: chain.joined)[i]? = some table → ∃ relation nullable,
    table.relation? schema = some relation ∧ entries[i]? = some (table.entry relation nullable) ∧
      (nullable = true ↔ chain.MayLack i)

namespace JoinChain

variable {schema : Schema} {head : TableSpelling} {joins : List JoinSpelling}
  {entries : List ScopeEntry}

theorem mayLack_append {join : JoinSpelling} {i : Nat} :
    (⟨head, joins ++ [join]⟩ : JoinChain).MayLack i ↔
      (⟨head, joins⟩ : JoinChain).MayLack i ∨ (i = joins.length + 1 ∧ join.dropsAdded = true) ∨
        (i ≤ joins.length ∧ join.dropsEarlier = true) := by
  have member : ∀ k other, (joins ++ [join])[k]? = some other ↔
      joins[k]? = some other ∨ (k = joins.length ∧ join = other) := by
    intro k other
    rcases Nat.lt_trichotomy k joins.length with before | rfl | past
    · rw [List.getElem?_append_left before]
      exact ⟨Or.inl, fun found => found.resolve_right fun ⟨same, _⟩ => by omega⟩
    · simp
    · have outside : (joins ++ [join])[k]? = none :=
        List.getElem?_eq_none (by rw [List.length_append, List.length_singleton]; omega)
      have before : joins[k]? = none := List.getElem?_eq_none (Nat.le_of_lt past)
      have other : k ≠ joins.length := by omega
      simp [outside, before, other]
  simp only [MayLack, member]
  constructor
  · rintro (⟨k, other, rfl, found | ⟨rfl, rfl⟩, drops⟩ | ⟨k, other, later, found | ⟨rfl, rfl⟩, drops⟩)
    · exact Or.inl (Or.inl ⟨k, other, rfl, found, drops⟩)
    · exact Or.inr (Or.inl ⟨rfl, drops⟩)
    · exact Or.inl (Or.inr ⟨k, other, later, found, drops⟩)
    · exact Or.inr (Or.inr ⟨later, drops⟩)
  · rintro ((⟨k, other, rfl, found, drops⟩ | ⟨k, other, later, found, drops⟩) | ⟨rfl, drops⟩ |
      ⟨early, drops⟩)
    · exact Or.inl ⟨k, other, rfl, Or.inl found, drops⟩
    · exact Or.inr ⟨k, other, later, Or.inl found, drops⟩
    · exact Or.inl ⟨_, join, rfl, Or.inr ⟨rfl, rfl⟩, drops⟩
    · exact Or.inr ⟨_, join, early, Or.inr ⟨rfl, rfl⟩, drops⟩

/-- No row lacks a table that is not in the chain. -/
theorem le_of_mayLack {i : Nat} (lacks : (⟨head, joins⟩ : JoinChain).MayLack i) :
    i ≤ joins.length := by
  rcases lacks with ⟨k, join, rfl, found, _⟩ | ⟨k, join, later, found, _⟩
  · exact (List.getElem?_eq_some_iff.mp found).1
  · exact Nat.le_trans later (Nat.le_of_lt (List.getElem?_eq_some_iff.mp found).1)

theorem Fills.start {relation : Relation} (known : head.relation? schema = some relation) :
    (⟨head, []⟩ : JoinChain).Fills schema [head.entry relation false] := by
  refine ⟨rfl, fun i table found => ?_⟩
  cases i with
  | zero =>
    cases found
    exact ⟨relation, false, known, rfl, by simp [MayLack]⟩
  | succ i => cases found

/-- One more join keeps it so. -/
theorem Fills.extend {join : JoinSpelling} (fills : (⟨head, joins⟩ : JoinChain).Fills schema entries)
    (known : (join.table.relation? schema).isSome) :
    (⟨head, joins ++ [join]⟩ : JoinChain).Fills schema (join.extend schema entries) := by
  obtain ⟨relation, known⟩ := Option.isSome_iff_exists.mp known
  have length : entries.length = joins.length + 1 := fills.length
  have extended : join.extend schema entries =
      entries.map (fun entry => if join.dropsEarlier then entry.leftOut none else entry) ++
        [join.table.entry relation join.dropsAdded] := by
    cases drops : join.dropsEarlier <;> simp [JoinSpelling.extend, drops, known]
  rw [extended]
  refine ⟨by simp [length], fun i table found => ?_⟩
  have tables : (head :: (⟨head, joins ++ [join]⟩ : JoinChain).joined) =
      (head :: (⟨head, joins⟩ : JoinChain).joined) ++ [join.table] := by
    simp [joined]
  rw [tables] at found
  rcases Nat.lt_or_ge i (joins.length + 1) with before | past
  · -- a table from before: this join may leave it out too
    rw [List.getElem?_append_left (by simpa [joined] using before)] at found
    obtain ⟨old, nullable, names, stands, lacks⟩ := fills.tables i table found
    refine ⟨old, nullable || join.dropsEarlier, names, ?_, ?_⟩
    · rw [List.getElem?_append_left (by simpa [length] using before), List.getElem?_map, stands]
      cases join.dropsEarlier <;> simp [TableSpelling.entry, ScopeEntry.leftOut]
    · rw [mayLack_append, ← lacks, Bool.or_eq_true]
      have early : i ≤ joins.length := by omega
      have other : i ≠ joins.length + 1 := by omega
      simp [early, other]
  · -- the table of this join
    have inside : i < joins.length + 1 + 1 := by
      have := (List.getElem?_eq_some_iff.mp found).1
      simpa [joined] using this
    obtain rfl : i = joins.length + 1 := by omega
    rw [List.getElem?_append_right (by simp [joined])] at found
    obtain rfl : join.table = table := by simpa [joined] using found
    refine ⟨relation, join.dropsAdded, known, ?_, ?_⟩
    · rw [List.getElem?_append_right (by simp [length])]
      simp [length]
    · have none_ : ¬ (⟨head, joins⟩ : JoinChain).MayLack (joins.length + 1) := fun lacks => by
        have := le_of_mayLack lacks
        omega
      rw [mayLack_append]
      simp [none_]

/-- All joins of a chain do. -/
theorem Fills.run {relation : Relation} (known : head.relation? schema = some relation)
    (others : ∀ join ∈ joins, (join.table.relation? schema).isSome) :
    (⟨head, joins⟩ : JoinChain).Fills schema
      (joins.foldl (JoinSpelling.extend schema) [head.entry relation false]) := by
  induction joins using List.reverseRecOn with
  | nil => exact .start known
  | append_singleton joins join ih =>
    rw [List.foldl_append]
    exact (ih fun other member => others other (by simp [member])).extend (others join (by simp))

end JoinChain

end AnnotatedSql
