import AnnotatedSql.Proofs.Statement.FromList

/-!
# Reading lists of tables

Each table is read as it is spelled. At statement level, `FROM` brings in the tables that commas
lead to up to the first join, each `JOIN` the one table after it, and no other token any.
-/

namespace AnnotatedSql

namespace Statement

variable {s : Statement} {i : Nat}

/-! ## The rest of a statement -/

/-- The lexemes from token `i` to the end. -/
def RestAt (s : Statement) (i : Nat) (lexemes : List Lexeme) : Prop :=
  s.lexemes.toList.drop i = lexemes

instance (s : Statement) (i : Nat) (lexemes : List Lexeme) : Decidable (s.RestAt i lexemes) :=
  inferInstanceAs (Decidable (_ = _))

namespace RestAt

variable {first rest : List Lexeme} {lexeme : Lexeme}

theorem hasAt (whole : s.RestAt i (first ++ rest)) : s.HasAt i first := ⟨rest, whole.symm⟩

theorem right (whole : s.RestAt i (first ++ rest)) : s.RestAt (i + first.length) rest := by
  rw [RestAt, ← List.drop_drop, whole, List.drop_left]

theorem tail (whole : s.RestAt i (lexeme :: rest)) : s.RestAt (i + 1) rest := by
  have parts : s.RestAt i ([lexeme] ++ rest) := whole
  exact parts.right

theorem head (whole : s.RestAt i rest) : s.lexemes[i]? = rest.head? := by
  rw [← whole, List.head?_drop]
  simp

theorem kind (whole : s.RestAt i rest) : s.kind? i = rest.head?.map (·.kind) := by
  rw [kind?, whole.head]

theorem is_head (whole : s.RestAt i (lexeme :: rest)) : s.is i lexeme.kind = true := by
  rw [Statement.is, whole.kind]
  exact beq_self_eq_true _

theorem isKeyword (whole : s.RestAt i rest) (keyword : String) :
    s.isKeyword i keyword = rest.head?.any (·.isKeyword keyword) := by
  rw [Statement.isKeyword, Statement.is, whole.kind, text, whole.head]
  cases rest <;> rfl

end RestAt

/-- Before the end of a reference stand no dot, no parenthesis and no alias. -/
theorem RestAt.ends {rest : List Lexeme} (whole : s.RestAt i rest) (ends : EndsTable rest) :
    s.is i .dot = false ∧ s.is i .parenOpen = false ∧ s.isKeyword i "as" = false ∧
      (s.isWord i = false ∨ s.isClauseKeyword i = true) := by
  cases rest with
  | nil =>
    have none_ : s.kind? i = none := whole.kind
    simp [Statement.is, Statement.isKeyword, isWord, none_]
  | cons first rest =>
    have ends := ends first rfl
    have kind : s.kind? i = some first.kind := whole.kind
    have clause : s.isClauseKeyword i = first.isOneOf clauseKeywords := by
      unfold isClauseKeyword isOneOf Lexeme.isOneOf
      congr 1
      exact funext fun keyword => whole.isKeyword keyword
    have alias_ : s.isKeyword i "as" = first.isKeyword "as" :=
      whole.isKeyword "as"
    simp only [Lexeme.endsTable, Bool.or_eq_true, Bool.and_eq_true, Bool.not_eq_true'] at ends
    rw [clause, alias_]
    rcases ends with (comma | semicolon) | ⟨word, bare⟩
    · have comma := eq_of_beq comma
      simp [Statement.is, isWord, kind, comma, Lexeme.isKeyword, TokenKind.isWord]
    · have semicolon := eq_of_beq semicolon
      simp [Statement.is, isWord, kind, semicolon, Lexeme.isKeyword, TokenKind.isWord]
    · obtain ⟨keyword, _, found⟩ := List.any_eq_true.mp word
      simp [Statement.is, kind, Lexeme.kind_of_keyword found, bare, word]

/-! ## Tables -/

theorem HasAt.name {lexeme : Lexeme} {rest : List Lexeme} (stands : s.HasAt i (lexeme :: rest)) :
    s.name? i = lexeme.name? := by
  rw [name?, stands.kind, text, stands.head]
  unfold Lexeme.name?
  cases lexeme.kind <;> rfl

theorem HasAt.isOneOf {lexeme : Lexeme} {rest : List Lexeme} (stands : s.HasAt i (lexeme :: rest))
    (keywords : List String) : s.isOneOf i keywords = lexeme.isOneOf keywords := by
  unfold Statement.isOneOf Lexeme.isOneOf
  congr 1
  exact funext stands.isKeyword

theorem followDots_end {fuel : Nat} {name : Name} (ends : s.is i .dot = false) :
    s.followDots fuel name i = (name, i) := by
  cases fuel with
  | zero => rfl
  | succ fuel => rw [followDots, ends, if_neg Bool.false_ne_true]

/-- A qualified name is followed to its last part. -/
theorem followDots_qualified {fuel : Nat} {path : List Lexeme} {name : Lexeme}
    (words : ∀ part ∈ path ++ [name], part.kind.isWord = true)
    (stands : s.HasAt i (qualifiedName path name))
    (ends : s.is (i + (qualifiedName path name).length) .dot = false)
    (enough : path.length ≤ fuel) : ∃ first last, s.name? i = some first ∧
      name.name? = some last ∧ s.followDots fuel first (i + 1) =
        (last, i + (qualifiedName path name).length) := by
  induction path generalizing i fuel with
  | nil =>
    obtain ⟨last, named⟩ := Lexeme.name_of_word (words name (by simp))
    exact ⟨last, last, stands.name.trans named, named, followDots_end ends⟩
  | cons part path ih =>
    obtain ⟨less, rfl⟩ := Nat.exists_eq_add_of_le' (Nat.one_le_of_lt enough)
    have length : i + (qualifiedName (part :: path) name).length =
        i + 1 + 1 + (qualifiedName path name).length := by
      simp only [qualifiedName, List.length_cons]
      omega
    rw [length] at ends ⊢
    obtain ⟨next, last, found, named, followed⟩ :=
      ih (fun other member => words other (List.mem_cons_of_mem _ member)) stands.tail.tail ends
        (Nat.le_of_succ_le_succ enough)
    obtain ⟨first, begins⟩ := Lexeme.name_of_word (words part List.mem_cons_self)
    refine ⟨first, last, stands.name.trans begins, named, ?_⟩
    rw [followDots, if_pos stands.tail.is, found]
    exact followed

theorem RestAt.aliasAt {aliasName : AliasSpelling} {rest : List Lexeme}
    (whole : s.RestAt i (aliasName.lexemes ++ rest)) (ends : EndsTable rest) :
    s.aliasAt i = (aliasName.name?, i + aliasName.lexemes.length) := by
  obtain ⟨_, noGroup, noAs, noWord⟩ := whole.right.ends ends
  have skipped : s.skipGroup (i + aliasName.lexemes.length) = i + aliasName.lexemes.length := by
    rw [skipGroup, noGroup, if_neg Bool.false_ne_true]
  unfold Statement.aliasAt
  cases aliasName with
  | absent =>
    have plain : (s.isWord i && !s.isClauseKeyword i) = false := by
      rcases noWord with noWord | word
      · rw [show s.isWord i = false from noWord, Bool.false_and]
      · rw [show s.isClauseKeyword i = true from word, Bool.not_true, Bool.and_false]
    rw [show s.isKeyword i "as" = false from noAs]
    simp [plain, AliasSpelling.lexemes, AliasSpelling.name?]
  | bare name word free =>
    have stands : s.HasAt i [name] := whole.hasAt
    have noKeyword : s.isClauseKeyword i = false := (stands.isOneOf _).trans free
    have bare : s.isKeyword i "as" = false :=
      (stands.isKeyword _).trans (Lexeme.isKeyword_of_isOneOf free (by decide))
    have isWord : s.isWord i = true := by rw [Statement.isWord, stands.kind]; exact word
    obtain ⟨found, named⟩ := Lexeme.name_of_word word
    simp only [bare, isWord, noKeyword, stands.name, AliasSpelling.name?, named]
    exact congrArg (some found, ·) skipped
  | introduced keyword name spelled word free =>
    have stands : s.HasAt i [keyword, name] := whole.hasAt
    have introduces : s.isKeyword i "as" = true := (stands.isKeyword _).trans spelled
    obtain ⟨found, named⟩ := Lexeme.name_of_word word
    simp only [introduces, stands.tail.name, AliasSpelling.name?, named]
    exact congrArg (some found, ·) skipped

/-- A name is not continued before an alias or the end of the reference. -/
theorem RestAt.afterName {aliasName : AliasSpelling} {rest : List Lexeme}
    (whole : s.RestAt i (aliasName.lexemes ++ rest)) (ends : EndsTable rest) :
    s.is i .dot = false ∧ s.is i .parenOpen = false := by
  have word : ∀ {first : Lexeme} {more : List Lexeme}, s.HasAt i (first :: more) →
      first.kind.isWord = true → s.is i .dot = false ∧ s.is i .parenOpen = false := by
    intro first more stands isWord
    rw [Statement.is, Statement.is, stands.kind]
    cases kind : first.kind <;> simp_all [TokenKind.isWord]
  cases aliasName with
  | absent =>
    obtain ⟨noDot, noGroup, _⟩ := RestAt.ends whole ends
    exact ⟨noDot, noGroup⟩
  | bare name isWord free => exact word whole.hasAt isWord
  | introduced keyword name spelled isWord free =>
    exact word whole.hasAt (by rw [Lexeme.kind_of_keyword spelled]; rfl)

theorem qualifiedName_head (path : List Lexeme) (name : Lexeme) :
    ∃ first more, qualifiedName path name = first :: more ∧ (path ++ [name]).head? = some first := by
  cases path with
  | nil => exact ⟨name, [], rfl, rfl⟩
  | cons part path => exact ⟨part, _, rfl, rfl⟩

/-- A table is read as it is spelled. -/
theorem RestAt.tableReference {table : TableSpelling} {rest : List Lexeme}
    (whole : s.RestAt i (table.lexemes ++ rest)) (ends : EndsTable rest) :
    ∃ reference, s.tableReference? i = some reference ∧
      reference.next = i + table.lexemes.length ∧
      reference.relation.map Prod.fst = table.name.name? ∧
      reference.aliasName = table.aliasName.name? := by
  rw [TableSpelling.lexemes, List.append_assoc] at whole
  have stands := whole.hasAt
  obtain ⟨noDot, noCall⟩ := whole.right.afterName ends
  have length : i + table.lexemes.length =
      i + (qualifiedName table.path table.name).length + table.aliasName.lexemes.length := by
    rw [TableSpelling.lexemes, List.length_append, Nat.add_assoc]
  have words := fun part member => (table.words part member).1
  obtain ⟨begin_, last, found, named, followed⟩ := followDots_qualified words stands noDot
    (Nat.le_trans (length_le_qualifiedName _ _) stands.length_le_size)
  have object : s.objectName i =
      some (last, i + (qualifiedName table.path table.name).length) := by
    rw [objectName, found, Option.map_some, followed]
  -- the first word is neither skipped nor taken for a word of a clause
  obtain ⟨first, more, same, head⟩ := qualifiedName_head table.path table.name
  rw [same] at stands
  have free := table.begins first head
  have isWord := words first (List.mem_of_mem_head? head)
  have noWord : s.isOneOf i ["only", "lateral"] = false := by
    rw [stands.isOneOf]
    simp [Lexeme.isOneOf, Lexeme.isKeyword_of_isOneOf free (List.mem_cons_self (a := "only")),
      Lexeme.isKeyword_of_isOneOf free (show "lateral" ∈ _ by decide)]
  have start : s.skipTableWords s.size i = i := by
    cases s.size with
    | zero => rfl
    | succ size => rw [skipTableWords, noWord, if_neg Bool.false_ne_true]
  have noGroup : s.is i .parenOpen = false := by
    rw [Statement.is, stands.kind]
    simpa using (plain_of_word isWord).1
  have noKeyword : s.isClauseKeyword i = false := by
    refine (stands.isOneOf _).trans (Bool.eq_false_iff.mpr fun found => ?_)
    obtain ⟨keyword, listed, spelled⟩ := List.any_eq_true.mp found
    rw [Lexeme.isKeyword_of_isOneOf free (List.mem_cons_of_mem _ listed)] at spelled
    cases spelled
  have alias_ := whole.right.aliasAt ends
  refine ⟨⟨some (last, i + (qualifiedName table.path table.name).length - 1), i,
    table.aliasName.name?, i + table.lexemes.length⟩, ?_, rfl, named.symm, rfl⟩
  simp [tableReference?, start, noGroup, noKeyword, object, noCall, relationReference?, alias_, length]

/-! ## Tokens that bring no tables -/

theorem scopeStepsAt_of_startsTables {previous lexeme : Lexeme} {rest : List Lexeme}
    (stands : s.HasAt i (previous :: lexeme :: rest))
    (names : Lexeme.startsTables previous lexeme = false) : s.scopeStepsAt (i + 1) = [] := by
  simp only [Lexeme.startsTables, Lexeme.isOneOf, List.any_cons, List.any_nil, Bool.or_false,
    Bool.or_eq_false_iff] at names
  obtain ⟨⟨⟨noFrom, noJoin⟩, noUpdate⟩, noInto⟩ := names
  have starts : s.startsStatement (i + 1) = (previous.kind == .parenOpen ||
      previous.kind == .parenClose || previous.kind == .semicolon) := by
    simp [startsStatement, Statement.is, stands.kind]
  have word := stands.tail.isKeyword
  simp [scopeStepsAt, word, noFrom, noJoin, starts, noUpdate, stands.isKeyword, noInto]

theorem scopeStepsAt_of_kind {kind : TokenKind} (found : s.is i kind = true) (noWord : kind ≠ .ident) :
    s.scopeStepsAt i = [] := by
  have bare : ∀ keyword, s.isKeyword i keyword = false := fun keyword => by
    rw [Statement.isKeyword, is_eq_false found noWord, Bool.false_and]
  simp [scopeStepsAt, bare]

/-- Nothing comes to statement level by `count` tokens from `i` on: each is within parentheses or
does nothing to the scope. -/
def SilentIn (s : Statement) (i count : Nat) : Prop :=
  ∀ k, i ≤ k → k < i + count → s.level k ≠ [] ∨ s.scopeStepsAt k = []

namespace SilentIn

variable {count more : Nat}

theorem nil (i : Nat) : s.SilentIn i 0 := fun k atLeast below => by omega

theorem one (silent : s.level i ≠ [] ∨ s.scopeStepsAt i = []) : s.SilentIn i 1 := by
  intro k atLeast below
  obtain rfl : k = i := by omega
  exact silent

theorem append (first : s.SilentIn i count) (rest : s.SilentIn (i + count) more) :
    s.SilentIn i (count + more) := by
  intro k atLeast below
  rcases Nat.lt_or_ge k (i + count) with before | past
  · exact first k atLeast before
  · exact rest k past (by omega)

end SilentIn

/-- A run in which no tables are named outside parentheses keeps silent, and ends at statement
level. -/
theorem HasAt.silent {previous : Lexeme} {run : List Lexeme} (stands : s.HasAt i (previous :: run))
    (tableless : Tableless previous run) (top : s.level (i + 1) = []) :
    s.SilentIn (i + 1) run.length ∧ s.level (i + 1 + run.length) = [] := by
  induction tableless generalizing i with
  | nil => exact ⟨SilentIn.nil _, top⟩
  | @token previous lexeme rest plain names _ ih =>
    have here := stands.tail.is
    have noOpen : s.is (i + 1) .parenOpen = false := is_eq_false here plain.1
    have noClose : s.is (i + 1) .parenClose = false := is_eq_false here plain.2
    obtain ⟨others, ends⟩ := ih stands.tail ((level_of_plain noOpen noClose).trans top)
    rw [List.length_cons, Nat.add_comm rest.length, ← Nat.add_assoc]
    have first : s.SilentIn (i + 1) 1 :=
      .one (Or.inr (scopeStepsAt_of_startsTables stands names))
    exact ⟨first.append others, ends⟩
  | @group previous opening closing inner rest opens closes balanced _ ih =>
    have begins : s.is (i + 1) .parenOpen = true := opens ▸ stands.tail.is
    have inside : s.HasAt (i + 2) (inner ++ closing :: rest) := stands.tail.tail
    have level : s.level (i + 2) = [i + 1] := by rw [level_of_open begins, top]
    have closed : s.is (i + 2 + inner.length) .parenClose = true := closes ▸ inside.right.is
    have after : s.level (i + 2 + inner.length + 1) = [] := by
      rw [level_of_close closed, inside.left.level_balanced balanced, level]
      rfl
    have first : s.SilentIn (i + 1) 1 := .one (Or.inr (scopeStepsAt_of_kind begins (by simp)))
    have within : s.SilentIn (i + 2) inner.length := by
      intro k atLeast below
      obtain ⟨offset, rfl⟩ := Nat.exists_eq_add_of_le atLeast
      apply Or.inl
      rw [inside.left.level_within balanced (by omega), level]
      simp
    have last : s.SilentIn (i + 2 + inner.length) 1 :=
      .one (Or.inr (scopeStepsAt_of_kind closed (by simp)))
    obtain ⟨others, ends⟩ := ih inside.right after
    have length : (opening :: (inner ++ closing :: rest)).length =
        1 + (inner.length + (1 + rest.length)) := by
      simp only [List.length_cons, List.length_append]
      omega
    rw [length, show i + 1 + (1 + (inner.length + (1 + rest.length))) =
      i + 2 + inner.length + 1 + rest.length by omega]
    exact ⟨first.append (within.append (last.append others)), ends⟩

/-- The same wherever the run stands, if it does not depend on what precedes it. -/
theorem HasAt.silent_free {run : List Lexeme} (stands : s.HasAt (i + 1) run)
    (tableless : ∀ previous, Tableless previous run) (top : s.level (i + 1) = []) :
    s.SilentIn (i + 1) run.length ∧ s.level (i + 1 + run.length) = [] := by
  cases run with
  | nil => exact ⟨SilentIn.nil _, top⟩
  | cons first rest =>
    have inside : i < s.lexemes.toList.length := by
      have := lt_size_of_is stands.is
      unfold size at this
      rw [Array.length_toList]
      omega
    have preceded : s.HasAt i (s.lexemes.toList[i] :: first :: rest) := by
      rw [HasAt, List.drop_eq_getElem_cons inside]
      exact List.cons_prefix_cons.mpr ⟨rfl, stands⟩
    exact preceded.silent (tableless _) top

section Tables

variable (schema : Schema)

theorem tablesIn_append (i first rest : Nat) :
    s.tablesIn schema i (first + rest) =
      s.tablesIn schema i first ++ s.tablesIn schema (i + first) rest := by
  unfold tablesIn
  rw [← List.range'_append_1, List.flatMap_append]

theorem tablesIn_succ (i count : Nat) : s.tablesIn schema i (count + 1) =
    s.tablesAt schema i ++ s.tablesIn schema (i + 1) count := rfl

variable {schema}

theorem tablesAt_of_steps (none_ : s.scopeStepsAt i = []) : s.tablesAt schema i = [] := by
  rw [tablesAt, none_]
  rfl

namespace Levelled

variable (schema) (levelled : s.Levelled)

include levelled

/-- What keeps silent brings no tables. -/
theorem tablesIn_silent {count : Nat} (silent : s.SilentIn i count) :
    s.tablesIn schema i count = [] := by
  refine List.flatMap_eq_nil_iff.mpr fun k member => ?_
  obtain ⟨atLeast, below⟩ := List.mem_range'_1.mp member
  exact (silent k atLeast below).elim levelled.tablesAt_inside tablesAt_of_steps

theorem tablesIn_free {run : List Lexeme} (tableless : ∀ previous, Tableless previous run)
    (stands : s.HasAt (i + 1) run) (top : s.level (i + 1) = []) :
    s.tablesIn schema (i + 1) run.length = [] ∧ s.level (i + 1 + run.length) = [] :=
  (stands.silent_free tableless top).imp_left (levelled.tablesIn_silent schema)

variable {schema}

/-! ## Tokens that bring tables -/

/-- A table at statement level brings the relation it names. -/
theorem table_of_top {reference : TableReference} (nullable : Bool)
    (inner : s.ClosesNothing reference.start) (top : s.level reference.start = []) :
    s.table? schema (.table reference nullable) =
      (reference.relation.map Prod.fst).bind fun name => schema.relation? name.text name.exact := by
  have context : s.queryContext reference.start = none := by
    rw [queryContext, (levelled.enclosers_of_level inner).1, top]
    rfl
  simp only [table?, ScopeStep.reference?, Option.bind_some, context]
  cases reference.relation <;> rfl

theorem isClauseLevel_of_top (inner : s.ClosesNothing i) (top : s.level i = []) :
    s.isClauseLevel i = true := by
  rw [isClauseLevel, (levelled.enclosers_of_level inner).2, top]
  rfl

/-- At statement level, `FROM` brings its list of tables. -/
theorem scopeStepsAt_from (word : s.isKeyword i "from" = true) (top : s.level i = []) :
    s.scopeStepsAt i = (s.tableList s.size (i + 1)).map (.table · false) := by
  have direct := levelled.isClauseLevel_of_top (closesNothing_of_is (is_of_keyword word) (by simp)) top
  simp [scopeStepsAt, direct, word]

/-- So does `JOIN` what it joins. -/
theorem scopeStepsAt_join (word : s.isKeyword i "join" = true) (top : s.level i = []) :
    s.scopeStepsAt i = s.joinSteps i := by
  have direct := levelled.isClauseLevel_of_top (closesNothing_of_is (is_of_keyword word) (by simp)) top
  have other : s.isKeyword i "from" = false := Bool.eq_false_iff.mpr fun found => by
    have same := foldCase_eq_of_keyword found word
    simp [foldCase_eq_ofList] at same
  simp [scopeStepsAt, direct, word, other]

theorem tablesAt_from (word : s.isKeyword i "from" = true) (top : s.level i = []) :
    s.tablesAt schema i = ((s.tableList s.size (i + 1)).map (·.relation.map Prod.fst)).filterMap
      (·.bind fun name => schema.relation? name.text name.exact) := by
  rw [tablesAt, levelled.scopeStepsAt_from word top, List.filterMap_map, List.filterMap_map]
  refine List.filterMap_congr fun reference member => ?_
  obtain ⟨inner, level⟩ := levelled.level_tableList member
  exact levelled.table_of_top false inner (level.trans ((level_of_keyword word).trans top))

theorem tablesAt_join {reference : TableReference} (word : s.isKeyword i "join" = true)
    (top : s.level i = []) (read : s.tableReference? (i + 1) = some reference) :
    s.tablesAt schema i = ((reference.relation.map Prod.fst).bind fun name =>
      schema.relation? name.text name.exact).toList := by
  obtain ⟨inner, level, _⟩ := levelled.level_tableReference read
  have earlier : ∀ context, s.table? schema (.absent context) = none := fun _ => rfl
  rw [tablesAt, levelled.scopeStepsAt_join word top, joinSteps, read, List.filterMap_append,
    ← levelled.table_of_top (s.isJoin i "left" || s.isJoin i "full") inner
      (level.trans ((level_of_keyword word).trans top))]
  generalize added : ScopeStep.table reference (s.isJoin i "left" || s.isJoin i "full") = action
  split <;> cases found : s.table? schema action <;> simp [earlier, added, found]

end Levelled

end Tables

/-! ## Whole lists -/

/-- Joined tables end the table before them, as what follows them does, and not with a comma. -/
theorem endsTable_of_joins (joins : List JoinSpelling) {rest : List Lexeme} (ends : EndsTable rest) :
    EndsTable (joins.flatMap JoinSpelling.lexemes ++ rest) ∧
      ((joins = [] → ∀ lexeme ∈ rest.head?, lexeme.kind ≠ .comma) →
        ∀ lexeme ∈ (joins.flatMap JoinSpelling.lexemes ++ rest).head?, lexeme.kind ≠ .comma) := by
  cases joins with
  | nil => exact ⟨ends, fun noComma => noComma rfl⟩
  | cons join joins =>
    rw [List.flatMap_cons, List.append_assoc]
    obtain ⟨joinEnds, words⟩ := join.endsTable (joins.flatMap JoinSpelling.lexemes ++ rest)
    exact ⟨joinEnds, fun _ lexeme head => by simp [words lexeme head]⟩

theorem RestAt.noComma {rest : List Lexeme} (whole : s.RestAt i rest)
    (noComma : ∀ lexeme ∈ rest.head?, lexeme.kind ≠ .comma) : s.is i .comma = false := by
  rw [Statement.is, whole.kind]
  cases rest with
  | nil => rfl
  | cons lexeme rest => simpa using noComma lexeme rfl

/-- The tables that the scan of `FROM` reads are those up to the first join. -/
theorem tableList_spelled {fuel : Nat} {first : JoinChain} {more : List JoinChain}
    {rest : List Lexeme} (whole : s.RestAt i (JoinChain.listLexemes first more ++ rest))
    (ends : EndsTable rest) (noComma : ∀ lexeme ∈ rest.head?, lexeme.kind ≠ .comma)
    (enough : more.length < fuel) :
    (s.tableList fuel i).map (·.relation.map Prod.fst) =
      (JoinChain.listed first more).map (·.name.name?) := by
  induction more generalizing first i fuel with
  | nil =>
    obtain ⟨less, rfl⟩ := Nat.exists_eq_add_of_lt enough
    rw [JoinChain.listLexemes, JoinChain.lexemes, List.append_assoc] at whole
    obtain ⟨joinEnds, others⟩ := endsTable_of_joins first.joins ends
    obtain ⟨reference, read, next, named, _⟩ := whole.tableReference joinEnds
    have last : s.is reference.next .comma = false := by
      rw [next]
      exact whole.right.noComma (others fun _ => noComma)
    simp [tableList, read, last, named, JoinChain.listed]
  | cons other more ih =>
    obtain ⟨less, rfl⟩ := Nat.exists_eq_add_of_lt enough
    have separated : EndsTable (⟨.comma, ","⟩ :: (JoinChain.listLexemes other more ++ rest)) := by
      rintro _ ⟨⟩
      rfl
    rw [JoinChain.listLexemes, JoinChain.lexemes, List.append_assoc, List.append_assoc,
      List.cons_append] at whole
    obtain ⟨joinEnds, others⟩ := endsTable_of_joins first.joins separated
    obtain ⟨reference, read, next, named, _⟩ := whole.tableReference joinEnds
    have after := whole.right
    rw [← next] at after
    unfold tableList JoinChain.listed
    rw [read, List.map_cons, List.map_cons, named]
    refine congrArg _ ?_
    cases joins : first.joins with
    | nil =>
      rw [joins] at after
      have comma : s.is reference.next .comma = true := after.is_head
      rw [if_pos comma, if_pos rfl]
      exact ih after.tail (by simp only [List.length_cons]; omega)
    | cons join further =>
      have last := after.noComma (others fun none_ => absurd (joins.symm.trans none_) (by simp))
      rw [last, if_neg Bool.false_ne_true, if_neg (by simp)]
      rfl

namespace Levelled

variable (schema : Schema) (levelled : s.Levelled) {rest : List Lexeme}

include levelled

/-- A join brings its table. -/
theorem tablesIn_join {join : JoinSpelling} (whole : s.RestAt (i + 1) (join.lexemes ++ rest))
    (ends : EndsTable rest) (top : s.level (i + 1) = []) :
    s.tablesIn schema (i + 1) join.lexemes.length = (join.table.relation? schema).toList ∧
      s.level (i + 1 + join.lexemes.length) = [] := by
  rw [JoinSpelling.lexemes, List.append_assoc, List.cons_append, List.append_assoc] at whole
  obtain ⟨words, atKeyword⟩ :=
    levelled.tablesIn_free schema join.words_tableless whole.hasAt top
  have keyword := whole.right
  have word : s.isKeyword (i + 1 + join.words.length) "join" = true :=
    (keyword.isKeyword "join").trans join.spelled
  obtain ⟨reference, read, _, named, _⟩ :=
    keyword.tail.tableReference (JoinCondition.endsTable join.condition ends)
  have stands := keyword.tail
  rw [← List.append_assoc] at stands
  obtain ⟨others, after⟩ := levelled.tablesIn_free schema join.operand_tableless stands.hasAt
    ((level_of_keyword word).trans atKeyword)
  have length : join.lexemes.length = join.words.length +
      ((join.table.lexemes ++ (join.condition.map JoinCondition.lexemes).getD []).length + 1) := by
    rw [JoinSpelling.lexemes, List.length_append, List.length_cons]
  rw [length, tablesIn_append, tablesIn_succ, words, others, List.nil_append, List.append_nil,
    levelled.tablesAt_join word atKeyword read, named]
  refine ⟨rfl, ?_⟩
  rw [← after]
  congr 1
  omega

theorem tablesIn_joins {joins : List JoinSpelling}
    (whole : s.RestAt (i + 1) (joins.flatMap JoinSpelling.lexemes ++ rest)) (ends : EndsTable rest)
    (top : s.level (i + 1) = []) :
    s.tablesIn schema (i + 1) (joins.flatMap JoinSpelling.lexemes).length =
        joins.filterMap (·.table.relation? schema) ∧
      s.level (i + 1 + (joins.flatMap JoinSpelling.lexemes).length) = [] := by
  induction joins generalizing i with
  | nil => exact ⟨rfl, top⟩
  | cons join joins ih =>
    rw [List.flatMap_cons, List.append_assoc] at whole
    obtain ⟨first, after⟩ :=
      levelled.tablesIn_join schema whole (endsTable_of_joins joins ends).1 top
    have shift : i + 1 + join.lexemes.length = i + join.lexemes.length + 1 := by omega
    have further := whole.right
    rw [shift] at further after
    obtain ⟨others, last⟩ := ih further after
    rw [List.flatMap_cons, List.length_append, tablesIn_append, first, ← Nat.add_assoc, shift, others,
      List.filterMap_cons]
    refine ⟨?_, last⟩
    cases join.table.relation? schema <;> rfl

/-- A chain brings the tables that are joined in it. -/
theorem tablesIn_chain {chain : JoinChain} (whole : s.RestAt (i + 1) (chain.lexemes ++ rest))
    (ends : EndsTable rest) (top : s.level (i + 1) = []) :
    s.tablesIn schema (i + 1) chain.lexemes.length =
        chain.joined.filterMap (·.relation? schema) ∧
      s.level (i + 1 + chain.lexemes.length) = [] := by
  rw [JoinChain.lexemes, List.append_assoc] at whole
  obtain ⟨head, after⟩ :=
    levelled.tablesIn_free schema chain.head.tableless whole.hasAt top
  have shift : i + 1 + chain.head.lexemes.length = i + chain.head.lexemes.length + 1 := by omega
  have further := whole.right
  rw [shift] at further after
  obtain ⟨joins, last⟩ := levelled.tablesIn_joins schema further ends after
  rw [JoinChain.lexemes, List.length_append, tablesIn_append, head, ← Nat.add_assoc, shift, joins,
    JoinChain.joined, List.filterMap_map]
  exact ⟨rfl, last⟩

theorem tablesIn_list {first : JoinChain} {more : List JoinChain}
    (whole : s.RestAt (i + 1) (JoinChain.listLexemes first more ++ rest)) (ends : EndsTable rest)
    (top : s.level (i + 1) = []) :
    s.tablesIn schema (i + 1) (JoinChain.listLexemes first more).length =
        ((first :: more).flatMap JoinChain.joined).filterMap (·.relation? schema) ∧
      s.level (i + 1 + (JoinChain.listLexemes first more).length) = [] := by
  induction more generalizing first i with
  | nil =>
    rw [List.flatMap_cons, List.flatMap_nil, List.append_nil]
    exact levelled.tablesIn_chain schema whole ends top
  | cons next more ih =>
    rw [JoinChain.listLexemes, List.append_assoc, List.cons_append] at whole
    have separated : EndsTable (⟨.comma, ","⟩ :: (JoinChain.listLexemes next more ++ rest)) := by
      rintro _ ⟨⟩
      rfl
    obtain ⟨chain, atComma⟩ := levelled.tablesIn_chain schema whole separated top
    have comma := whole.right.is_head
    have further := whole.right.tail
    obtain ⟨others, last⟩ := ih further ((level_of_is comma (by simp) (by simp)).trans atComma)
    rw [JoinChain.listLexemes, List.length_append, List.length_cons, tablesIn_append, tablesIn_succ,
      chain, tablesAt_of_steps (scopeStepsAt_of_kind comma (by simp)), List.nil_append, others,
      List.flatMap_cons (x := first), List.filterMap_append]
    refine ⟨rfl, ?_⟩
    rw [← last]
    congr 1
    omega

end Levelled

theorem scopeStepsAt_of_keyword {keyword : String} (found : s.isKeyword i keyword = true)
    (different : ∀ other ∈ ["from", "join", "update", "into"], foldCase keyword ≠ foldCase other) :
    s.scopeStepsAt i = [] := by
  have other : ∀ other ∈ ["from", "join", "update", "into"], s.isKeyword i other = false :=
    fun other listed => Bool.eq_false_iff.mpr fun again =>
      different other listed (foldCase_eq_of_keyword found again)
  simp [scopeStepsAt, other]

/-- A statement that selects everything from a list of tables. -/
structure SelectsStar (s : Statement) (first : JoinChain) (more : List JoinChain)
    (rest : List Lexeme) : Prop where
  select : s.isKeyword 0 "select" = true
  star : s.is 1 .star = true
  from_ : s.isKeyword 2 "from" = true
  list : s.RestAt 3 (JoinChain.listLexemes first more ++ rest)
  follows : FollowsList rest

namespace SelectsStar

variable {schema : Schema} {first : JoinChain} {more : List JoinChain} {rest : List Lexeme}
  (selects : s.SelectsStar first more rest) (levelled : s.Levelled)

include selects

theorem size_eq : s.size = 3 + (JoinChain.listLexemes first more ++ rest).length := by
  have after := lt_size_of_keyword selects.from_
  have length := congrArg List.length selects.list
  rw [List.length_drop, Array.length_toList] at length
  unfold size at after ⊢
  omega

theorem level_from : s.level 2 = [] :=
  (level_of_is selects.star (by simp) (by simp)).trans (level_of_keyword selects.select)

theorem level_list : s.level 3 = [] := (level_of_keyword selects.from_).trans selects.level_from

include levelled

/-- It has the tables that commas lead to up to the first join, and those that are joined. -/
theorem tables : (List.range s.size).flatMap (s.tablesAt schema) =
    (JoinChain.listed first more ++ (first :: more).flatMap JoinChain.joined).filterMap
      (·.relation? schema) := by
  have ends := selects.follows.endsTable
  have fewer : more.length < s.size := by
    have shorter := JoinChain.length_le_listLexemes first more
    rw [selects.size_eq, List.length_append]
    omega
  have read := tableList_spelled selects.list ends selects.follows.noComma fewer
  have atFrom : s.tablesAt schema 2 = (JoinChain.listed first more).filterMap (·.relation? schema) := by
    rw [levelled.tablesAt_from selects.from_ selects.level_from, read, List.filterMap_map]
    rfl
  have atSelect : s.tablesAt schema 0 = [] :=
    tablesAt_of_steps (scopeStepsAt_of_keyword selects.select (by simp [foldCase_eq_ofList]))
  have atStar : s.tablesAt schema 1 = [] :=
    tablesAt_of_steps (scopeStepsAt_of_kind selects.star (by simp))
  obtain ⟨joins, after⟩ :=
    levelled.tablesIn_list schema selects.list ends selects.level_list
  have behind := selects.list.right
  have shift : 3 + (JoinChain.listLexemes first more).length =
    2 + (JoinChain.listLexemes first more).length + 1 := by omega
  rw [← List.append_nil rest, shift] at behind
  rw [shift] at after
  obtain ⟨none_, _⟩ :=
    levelled.tablesIn_free schema selects.follows.tableless behind.hasAt after
  have whole : (List.range s.size).flatMap (s.tablesAt schema) = s.tablesIn schema 0 s.size := by
    rw [tablesIn, List.range_eq_range']
  rw [whole, selects.size_eq, List.length_append,
    show 3 + ((JoinChain.listLexemes first more).length + rest.length) =
      (JoinChain.listLexemes first more).length + rest.length + 1 + 1 + 1 by omega,
    tablesIn_succ, tablesIn_succ, tablesIn_succ, tablesIn_append, atSelect, atStar, atFrom, joins,
    shift, none_, List.nil_append, List.nil_append, List.append_nil, List.filterMap_append]

end SelectsStar

end Statement

end AnnotatedSql
