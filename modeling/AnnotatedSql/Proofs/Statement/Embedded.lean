import AnnotatedSql.Proofs.Statement.FromList

/-!
# Statements within statements

One statement stands within another if its tokens stand there in a row, with the same levels on top
of the level that they begin at, and if no query goes on after them. Whatever is read from the inner
statement is then read from the outer one too, as many tokens further on: the words after which
another query begins are never taken for names, and parentheses around the inner statement for none
of its own.
-/

namespace AnnotatedSql

/-- The type name, `n` tokens further on. -/
def TypeName.moved (n : Nat) (type : TypeName) : TypeName :=
  { type with lo := type.lo + n, hi := type.hi + n }

/-- The range, `n` tokens further on. -/
def movedRange (n : Nat) : Nat × Nat → Nat × Nat := Prod.map (· + n) (· + n)

/-- The query of an outer statement that stands for a query of an inner one. What is at the level of
the inner statement belongs to the query `outer` around it. -/
def movedContext (n : Nat) (outer context : Option Nat) : Option Nat := (context.map (· + n)).or outer

/-- Places of the inner statement are as far apart as before. -/
theorem beq_moved (n i j : Nat) : (i + n == j + n) = (i == j) := by
  rw [Bool.eq_iff_iff, beq_iff_eq, beq_iff_eq, Nat.add_right_cancel_iff]

theorem map_beq_moved (n : Nat) (place : Option Nat) (j : Nat) :
    (place.map (· + n) == some (j + n)) = (place == some j) := by
  cases place with
  | none => rfl
  | some i => exact beq_moved n i j

/-- Queries of the inner statement stay apart if the one around it begins before it. -/
theorem movedContext_inj {n : Nat} {outer context other : Option Nat}
    (before : ∀ opening ∈ outer, opening < n) :
    movedContext n outer context = movedContext n outer other ↔ context = other := by
  have apart : ∀ opening, some (opening + n) ≠ outer := fun opening same => by
    have := before (opening + n) same.symm
    omega
  cases context with
  | none =>
    cases other with
    | none => simp
    | some second => exact iff_of_false (apart second).symm nofun
  | some first =>
    cases other with
    | none => exact iff_of_false (apart first) nofun
    | some second => simp [movedContext]

@[simp] theorem movedContext_zero (context : Option Nat) : movedContext 0 none context = context := by
  cases context <;> rfl

namespace Statement

/-- The words between two queries that are combined. -/
def combiners : List String := ["union", "except", "intersect"]

@[simp] theorem mem_combiners {word : String} :
    word ∈ combiners ↔ word = "union" ∨ word = "except" ∨ word = "intersect" := by
  simp [combiners]

/-- Whether any word after token `i` is a name. -/
def takesName (s : Statement) (i : Nat) : Bool :=
  s.is i .dot || s.is i .doubleColon || s.isKeyword i "as" || s.isKeyword i "into"

/-- No query goes on at token `i`: there is none, or it closes a parenthesis, or it is a semicolon,
or it combines two queries and the token before it does not take it for a name. -/
def EndsQuery (s : Statement) (i : Nat) : Prop :=
  ∀ lexeme, s.lexemes[i]? = some lexeme → lexeme.kind = .parenClose ∨ lexeme.kind = .semicolon ∨
    lexeme.isOneOf combiners = true ∧ s.takesName (i - 1) = false

/-- The statement `s` stands in `t` from token `n` on. -/
structure Embeds (n : Nat) (s t : Statement) : Prop where
  inner : s.Levelled
  whole : t.Levelled
  lexeme : ∀ {i}, i < s.size → t.lexemes[i + n]? = s.lexemes[i]?
  level : ∀ {i}, i ≤ s.size → t.level (i + n) = (s.level i).map (· + n) ++ t.level n
  closed : s.level s.size = []
  subquery : ∀ opening ∈ (t.level n).head?, t.opensSubquery opening = true
  before : 0 < n → t.is (n - 1) .parenOpen = true
  after : t.EndsQuery (s.size + n)

/-! ## Tokens -/

section Tokens

variable {s : Statement} {i : Nat}

theorem level_head_lt : ∀ opening ∈ (s.level i).head?, opening < i :=
  fun _ found => (level_mem (List.mem_of_mem_head? found)).1

/-- Innermost after an opening parenthesis is that parenthesis. -/
theorem level_head_of_open (later : 0 < i) (opens : s.is (i - 1) .parenOpen = true) :
    (s.level i).head? = some (i - 1) := by
  have level := level_of_open opens
  rw [Nat.sub_add_cancel later] at level
  rw [level]
  rfl

theorem name_of_not_word (noWord : s.isWord i = false) : s.name? i = none := by
  unfold isWord at noWord
  unfold name?
  generalize s.kind? i = kind at noWord
  split
  · cases noWord
  · cases noWord
  · rfl

theorem takesName_eq {t : Statement} {j : Nat} (same : t.lexemes[j]? = s.lexemes[i]?) :
    t.takesName j = s.takesName i := by
  unfold takesName isKeyword Statement.is kind? text
  rw [same]

theorem isKeyword_of_not_word (noWord : s.isWord i = false) (keyword : String) :
    s.isKeyword i keyword = false := by
  refine Bool.eq_false_iff.mpr fun found => ?_
  have word : s.isWord i = true := by
    rw [isWord, eq_of_beq (is_of_keyword found)]
    rfl
  rw [noWord] at word
  cases word

theorem typeWord_of_not_word (noWord : s.isWord i = false) : s.typeWord? i = none := by
  unfold isWord at noWord
  unfold typeWord?
  generalize s.kind? i = kind at noWord
  split
  · cases noWord
  · cases noWord
  · rfl

end Tokens

theorem HasAt.lexeme {n i : Nat} {t : Statement} {lexemes : List Lexeme}
    (written : t.HasAt n lexemes) (inside : i < lexemes.length) :
    t.lexemes[i + n]? = lexemes[i]? := by
  obtain ⟨rest, whole⟩ := written
  have stands : (t.lexemes.toList.drop n)[i]? = lexemes[i]? := by
    rw [← whole, List.getElem?_append_left inside]
  simpa [Nat.add_comm i n] using stands

/-- A balanced run that stands in a statement is a statement within it, if it begins a subquery or
the whole and no query goes on after it. -/
theorem HasAt.embeds {n : Nat} {t : Statement} {lexemes : List Lexeme} (written : t.HasAt n lexemes)
    (levelled : t.Levelled) (balanced : Balanced lexemes)
    (subquery : ∀ opening ∈ (t.level n).head?, t.opensSubquery opening = true)
    (before : 0 < n → t.is (n - 1) .parenOpen = true) (after : t.EndsQuery (lexemes.length + n)) :
    (ofLexemes lexemes).Embeds n t where
  inner := ofLexemes_levelled lexemes
  whole := levelled
  lexeme {i} inside := by
    rw [written.lexeme inside]
    simp [ofLexemes]
  level {i} inside := by
    rw [Nat.add_comm, written.level_within balanced inside, ← List.map_take]
    rfl
  closed := by
    have whole : (ofLexemes lexemes).HasAt 0 lexemes := List.prefix_rfl
    have closed := whole.level_balanced balanced
    rwa [Nat.zero_add] at closed
  subquery := subquery
  before := before
  after := after

namespace Embeds

variable {n : Nat} {s t : Statement} (embeds : s.Embeds n t) {i : Nat}

include embeds

theorem size_le : s.size + n ≤ t.size := by
  rcases Nat.eq_zero_or_pos s.size with empty | some_
  · rw [empty, Nat.zero_add]
    rcases Nat.eq_zero_or_pos n with rfl | later
    · exact Nat.zero_le _
    · have := lt_size_of_is (embeds.before later)
      omega
  · have last := embeds.lexeme (Nat.sub_lt some_ Nat.one_pos)
    have inside : s.size - 1 < s.lexemes.size := Nat.sub_lt some_ Nat.one_pos
    rw [Array.getElem?_eq_getElem inside] at last
    have := (Array.getElem?_eq_some_iff.mp last).1
    change _ < t.size at this
    omega

/-- The tokens of the outer statement are those before the inner one, its own and those after it. -/
theorem range_size : List.range t.size = List.range n ++ ((List.range s.size).map (· + n) ++
    List.range' (s.size + n) (t.size - (s.size + n))) := by
  have sizes : t.size = n + (s.size + (t.size - (s.size + n))) := by
    have := embeds.size_le
    omega
  have inner : (List.range s.size).map (· + n) = List.range' n s.size := by
    rw [List.range_eq_range', ← Nat.add_zero n, ← List.map_add_range']
    exact List.map_congr_left fun i _ => Nat.add_comm i _
  conv_lhs => rw [sizes]
  rw [inner, List.range_eq_range', List.range_eq_range', ← List.range'_append,
    ← List.range'_append]
  simp [Nat.add_comm]

theorem kind (inside : i < s.size) : t.kind? (i + n) = s.kind? i := by
  unfold kind?
  rw [embeds.lexeme inside]

theorem is_inside (inside : i < s.size) (kind : TokenKind) : t.is (i + n) kind = s.is i kind := by
  unfold Statement.is
  rw [embeds.kind inside]

theorem text (inside : i < s.size) : t.text (i + n) = s.text i := by
  unfold Statement.text
  rw [embeds.lexeme inside]

theorem isKeyword_inside (inside : i < s.size) (keyword : String) :
    t.isKeyword (i + n) keyword = s.isKeyword i keyword := by
  unfold Statement.isKeyword
  rw [embeds.is_inside inside, embeds.text inside]

theorem isOneOf_inside (inside : i < s.size) (keywords : List String) :
    t.isOneOf (i + n) keywords = s.isOneOf i keywords := by
  unfold Statement.isOneOf
  congr 1
  exact funext (embeds.isKeyword_inside inside)

theorem isClauseKeyword (inside : i < s.size) : t.isClauseKeyword (i + n) = s.isClauseKeyword i :=
  embeds.isOneOf_inside inside _

theorem isWord (inside : i < s.size) : t.isWord (i + n) = s.isWord i := by
  unfold Statement.isWord
  rw [embeds.kind inside]

theorem name (inside : i < s.size) : t.name? (i + n) = s.name? i := by
  unfold name?
  rw [embeds.kind inside, embeds.text inside]

theorem typeWord (inside : i < s.size) : t.typeWord? (i + n) = s.typeWord? i := by
  unfold typeWord?
  rw [embeds.kind inside, embeds.text inside]

theorem takesName (inside : i < s.size) : t.takesName (i + n) = s.takesName i :=
  takesName_eq (embeds.lexeme inside)

/-! ## The token after the statement -/

omit embeds in
theorem kind_past : s.kind? s.size = none :=
  kind_eq_none_iff.mpr (Nat.le_refl _)

omit embeds in
theorem is_past (kind : TokenKind) : s.is s.size kind = false := by
  rw [Statement.is, kind_past]
  rfl

omit embeds in
theorem isWord_past : s.isWord s.size = false := by
  rw [Statement.isWord, kind_past]
  rfl

/-- It is a word only if it combines queries. -/
theorem lexeme_after {lexeme : Lexeme} (found : t.lexemes[s.size + n]? = some lexeme)
    (word : lexeme.kind.isWord = true) :
    lexeme.isOneOf combiners = true ∧ t.takesName (s.size + n - 1) = false := by
  rcases embeds.after lexeme found with closes | semicolon | combines
  · rw [closes] at word
    cases word
  · rw [semicolon] at word
    cases word
  · exact combines

theorem is_after {kind : TokenKind} (plain : kind ≠ .ident ∧ kind ≠ .parenClose ∧ kind ≠ .semicolon) :
    t.is (s.size + n) kind = false := by
  refine Bool.eq_false_iff.mpr fun found => ?_
  obtain ⟨lexeme, listed, rfl⟩ := Option.map_eq_some_iff.mp (eq_of_beq found)
  rcases embeds.after lexeme listed with closes | semicolon | ⟨combines, _⟩
  · exact plain.2.1 closes
  · exact plain.2.2 semicolon
  · obtain ⟨keyword, _, spelled⟩ := List.any_eq_true.mp combines
    exact plain.1 (Lexeme.kind_of_keyword spelled)

theorem isKeyword_after {keyword : String} (other : foldCase keyword ∉ combiners) :
    t.isKeyword (s.size + n) keyword = false := by
  refine Bool.eq_false_iff.mpr fun found => other ?_
  obtain ⟨word, spelled⟩ := Bool.and_eq_true_iff.mp found
  obtain ⟨lexeme, listed, kind⟩ := Option.map_eq_some_iff.mp (eq_of_beq word)
  obtain ⟨combines, _⟩ := embeds.lexeme_after listed (by rw [kind]; rfl)
  obtain ⟨combiner, member, again⟩ := List.any_eq_true.mp combines
  have small : ∀ combiner ∈ combiners, foldCase combiner = combiner := by
    simp [foldCase_eq_ofList]
  rw [Statement.text, listed] at spelled
  have same : foldCase combiner = foldCase keyword := by
    have again := (Bool.and_eq_true_iff.mp again).2
    rw [equalFold_iff] at spelled again
    exact again.symm.trans spelled
  rw [← same, small combiner member]
  exact member

theorem isWord_after (noClause : t.isClauseKeyword (s.size + n) = false) :
    t.isWord (s.size + n) = false := by
  refine Bool.eq_false_iff.mpr fun word => ?_
  obtain ⟨kind, found, isWord⟩ := Option.any_eq_true _ _ |>.mp word
  obtain ⟨lexeme, listed, rfl⟩ := Option.map_eq_some_iff.mp found
  obtain ⟨combiner, member, spelled⟩ := List.any_eq_true.mp (embeds.lexeme_after listed isWord).1
  have clause : combiner ∈ clauseKeywords := by
    have all : ∀ combiner ∈ combiners, combiner ∈ clauseKeywords := by decide
    exact all combiner member
  have keyword : t.isKeyword (s.size + n) combiner = true := by
    unfold Statement.isKeyword Statement.is kind? Statement.text
    rw [listed]
    exact spelled
  rw [Statement.isClauseKeyword, isOneOf, List.any_eq_false] at noClause
  exact noClause combiner clause keyword

/-- After a token that takes any word for a name there is none. -/
theorem isWord_after_of_takesName (last : i + 1 = s.size) (takes : s.takesName i = true) :
    t.isWord (s.size + n) = false := by
  refine Bool.eq_false_iff.mpr fun word => ?_
  obtain ⟨kind, found, isWord⟩ := Option.any_eq_true _ _ |>.mp word
  obtain ⟨lexeme, listed, rfl⟩ := Option.map_eq_some_iff.mp found
  have free := (embeds.lexeme_after listed isWord).2
  rw [show s.size + n - 1 = i + n by omega, embeds.takesName (by omega), takes] at free
  cases free

/-! ## Tokens up to the one after the statement -/

theorem is (inside : i ≤ s.size) {kind : TokenKind}
    (plain : kind ≠ .ident ∧ kind ≠ .parenClose ∧ kind ≠ .semicolon) :
    t.is (i + n) kind = s.is i kind := by
  rcases Nat.eq_or_lt_of_le inside with rfl | before
  · rw [embeds.is_after plain, is_past]
  · exact embeds.is_inside before kind

theorem isKeyword (inside : i ≤ s.size) {keyword : String} (other : foldCase keyword ∉ combiners) :
    t.isKeyword (i + n) keyword = s.isKeyword i keyword := by
  rcases Nat.eq_or_lt_of_le inside with rfl | before
  · rw [embeds.isKeyword_after other, Statement.isKeyword, is_past, Bool.false_and]
  · exact embeds.isKeyword_inside before keyword

theorem isOneOf (inside : i ≤ s.size) {keywords : List String}
    (others : ∀ keyword ∈ keywords, foldCase keyword ∉ combiners) :
    t.isOneOf (i + n) keywords = s.isOneOf i keywords := by
  unfold Statement.isOneOf
  rw [Bool.eq_iff_iff, List.any_eq_true, List.any_eq_true]
  refine exists_congr fun keyword => and_congr_right fun listed => ?_
  rw [embeds.isKeyword inside (others keyword listed)]

/-- A name is read where the word may be none of a clause. -/
theorem name_of_free (inside : i ≤ s.size) (free : t.isClauseKeyword (i + n) = false) :
    t.name? (i + n) = s.name? i := by
  rcases Nat.eq_or_lt_of_le inside with rfl | before
  · rw [name_of_not_word (embeds.isWord_after free), name_of_not_word isWord_past]
  · exact embeds.name before

/-- Or where any word is taken for one. -/
theorem name_after (inside : i < s.size) (takes : s.takesName i = true) :
    t.name? (i + 1 + n) = s.name? (i + 1) := by
  rcases Nat.eq_or_lt_of_le (Nat.succ_le_of_lt inside) with last | before
  · have last : i + 1 = s.size := last
    rw [last, name_of_not_word (embeds.isWord_after_of_takesName last takes),
      name_of_not_word isWord_past]
  · exact embeds.name before

theorem typeWord_after (inside : i < s.size) (takes : s.takesName i = true) :
    t.typeWord? (i + 1 + n) = s.typeWord? (i + 1) := by
  rcases Nat.eq_or_lt_of_le (Nat.succ_le_of_lt inside) with last | before
  · have last : i + 1 = s.size := last
    rw [last, typeWord_of_not_word (embeds.isWord_after_of_takesName last takes),
      typeWord_of_not_word isWord_past]
  · exact embeds.typeWord before

/-- Whether a keyword stands before a token. No parenthesis before the statement is one. -/
theorem isKeyword_before (inside : i ≤ s.size) (keyword : String) :
    (decide (0 < i + n) && t.isKeyword (i + n - 1) keyword) =
      (decide (0 < i) && s.isKeyword (i - 1) keyword) := by
  rcases Nat.eq_zero_or_pos i with rfl | later
  · rcases Nat.eq_zero_or_pos n with rfl | further
    · rfl
    · rw [Nat.zero_add, Statement.isKeyword, is_eq_false (embeds.before further) (by simp)]
      simp
  · rw [show i + n - 1 = i - 1 + n by omega, embeds.isKeyword_inside (by omega)]
    simp [later, Nat.add_pos_left later]

/-! ## Levels -/

theorem exists_kind (inside : i < s.size) :
    ∃ kind, s.kind? i = some kind ∧ t.kind? (i + n) = some kind := by
  obtain ⟨kind, found⟩ := exists_kind_of_lt inside
  exact ⟨kind, found, (embeds.kind inside).trans found⟩

/-- What is around a token is what is around it in the inner statement, and what is open there. -/
theorem outside (inside : i < s.size) {kind : TokenKind} (found : s.kind? i = some kind) :
    Nesting.outside (t.level (i + n)) kind =
      (Nesting.outside (s.level i) kind).map (· + n) ++ t.level n := by
  unfold Nesting.outside
  split
  next closes =>
    subst closes
    have innerCloses : s.is i .parenClose = true := by
      rw [Statement.is, found]
      rfl
    have outerCloses := (embeds.is_inside inside .parenClose).trans innerCloses
    rw [← level_of_close outerCloses, ← level_of_close innerCloses, Nat.add_right_comm,
      embeds.level (Nat.succ_le_of_lt inside)]
  · exact embeds.level (Nat.le_of_lt inside)

theorem enclosers (inside : i < s.size) :
    t.enclosers (i + n) = (s.enclosers i).map (· + n) ++ t.level n := by
  obtain ⟨kind, found, foundToo⟩ := embeds.exists_kind inside
  rw [embeds.whole.enclosers_eq foundToo, embeds.inner.enclosers_eq found, embeds.outside inside found]

theorem enclosing (inside : i < s.size) :
    t.enclosing (i + n) = movedContext n (t.level n).head? (s.enclosing i) := by
  obtain ⟨kind, found, foundToo⟩ := embeds.exists_kind inside
  rw [embeds.whole.enclosing_eq foundToo, embeds.inner.enclosing_eq found, embeds.outside inside found,
    List.head?_append, List.head?_map]
  rfl

theorem opensSubquery (inside : i < s.size) : t.opensSubquery (i + n) = s.opensSubquery i := by
  unfold Statement.opensSubquery
  rw [embeds.is_inside inside, Nat.add_right_comm,
    embeds.isKeyword (Nat.succ_le_of_lt inside) (by simp [foldCase_eq_ofList]),
    embeds.isKeyword (Nat.succ_le_of_lt inside) (by simp [foldCase_eq_ofList])]

theorem enclosers_lt {opening : Nat} (member : opening ∈ s.enclosers i) (inside : i < s.size) :
    opening < s.size := by
  obtain ⟨kind, found, _⟩ := embeds.exists_kind inside
  rw [embeds.inner.enclosers_eq found] at member
  have listed : opening ∈ s.level i := by
    unfold Nesting.outside at member
    split at member
    · exact List.mem_of_mem_tail member
    · exact member
  exact Nat.lt_trans (level_mem listed).1 inside

theorem subqueries (inside : i < s.size) : t.subqueries (i + n) =
    (s.subqueries i).map (· + n) ++ (t.level n).filter t.opensSubquery := by
  unfold Statement.subqueries
  rw [embeds.enclosers inside, List.filter_append, List.filter_map]
  congr 2
  refine List.filter_congr fun opening member => ?_
  exact embeds.opensSubquery (embeds.enclosers_lt member inside)

/-- What is open around the inner statement begins with a subquery. -/
theorem outer_eq : ((t.level n).filter t.opensSubquery).head? = (t.level n).head? := by
  cases level : t.level n with
  | nil => rfl
  | cons opening others =>
    rw [List.filter_cons_of_pos (embeds.subquery opening (by rw [level]; rfl))]
    rfl

/-- The innermost query around a token is the same, or the one around the whole inner statement. -/
theorem queryContext (inside : i < s.size) :
    t.queryContext (i + n) = movedContext n (t.level n).head? (s.queryContext i) := by
  have first : ∀ u : Statement, ∀ j, u.queryContext j = (u.subqueries j).head? :=
    fun _ _ => List.head?_filter.symm
  rw [first, first, embeds.subqueries inside, List.head?_append, embeds.outer_eq, List.head?_map]
  rfl

/-- Beyond the queries around a token lie those around the inner statement. -/
theorem contexts (inside : i < s.size) : ∃ beyond : List (Option Nat),
    t.contexts (i + n) = (s.contexts i).map (movedContext n (t.level n).head?) ++ beyond ∧
      ∀ context ∈ beyond, context ≠ (t.level n).head? ∧ ∀ opening ∈ context, opening < n := by
  have split : t.contexts (i + n) = (s.subqueries i).map (some <| · + n) ++
      ((t.level n).filter t.opensSubquery).map some ++ [none] := by
    unfold Statement.contexts
    rw [embeds.subqueries inside, List.map_append, List.map_map]
    rfl
  have known : (s.contexts i).map (movedContext n (t.level n).head?) =
      (s.subqueries i).map (some <| · + n) ++ [(t.level n).head?] := by
    unfold Statement.contexts
    rw [List.map_append, List.map_map]
    rfl
  rw [split, known]
  cases level : t.level n with
  | nil => exact ⟨[], by simp, by simp⟩
  | cons first others =>
    have opens := embeds.subquery first (by rw [level]; rfl)
    refine ⟨(others.filter t.opensSubquery).map some ++ [none], ?_, fun context member => ?_⟩
    · rw [List.filter_cons_of_pos opens]
      simp
    · rcases List.mem_append.mp member with further | last
      · obtain ⟨opening, listed, rfl⟩ := List.mem_map.mp further
        have inOthers := (List.mem_filter.mp listed).1
        have outer : t.level first = others :=
          level_of_mem (show t.level n = [] ++ first :: others from level)
        have before := (level_mem (outer ▸ inOthers)).1
        have := (level_mem (show first ∈ t.level n by simp [level])).1
        refine ⟨?_, ?_⟩
        · rintro same
          cases same
          exact Nat.lt_irrefl _ before
        · rintro _ ⟨⟩
          omega
      · obtain rfl := List.mem_singleton.mp last
        exact ⟨nofun, nofun⟩

/-! ## At the beginning -/

omit embeds in
theorem isTop (embeds : s.Embeds 0 t) (inside : i < s.size) : t.isTop i = s.isTop i := by
  have around : t.enclosing i = movedContext 0 none (s.enclosing i) := embeds.enclosing inside
  rw [Statement.isTop, Statement.isTop, around, movedContext_zero]

omit embeds in
/-- What is found at statement level in the beginning is found in the whole. -/
theorem findTop (embeds : s.Embeds 0 t) {lo hi : Nat} {test testToo : Nat → Bool}
    (bounded : s.size ≤ hi) (same : ∀ i < s.size, testToo i = test i)
    (found : s.findTop? lo s.size test = some i) : t.findTop? lo hi testToo = some i := by
  obtain ⟨first, later, before, others⟩ := findTop_eq_some_iff.mp found
  refine findTop_eq_some_iff.mpr ⟨?_, later, by omega, fun j after earlier => ?_⟩
  · rw [embeds.isTop before, same i before]
    exact first
  · rw [embeds.isTop (by omega), same j (by omega)]
    exact others j after earlier

/-! ## Partners -/

/-- A closing parenthesis ends the pair that it ends in the inner statement. -/
theorem mem_pairs_closing (inside : i < s.size) {opening : Nat} :
    (opening, i + n) ∈ t.pairs ↔ ∃ inner, (inner, i) ∈ s.pairs ∧ opening = inner + n := by
  rw [embeds.whole.pair_iff, embeds.is_inside inside, embeds.level (Nat.le_of_lt inside)]
  simp only [embeds.inner.pair_iff]
  constructor
  · rintro ⟨closes, innermost⟩
    cases level : s.level i with
    | cons first others =>
      rw [level] at innermost
      cases innermost
      exact ⟨first, ⟨closes, rfl⟩, rfl⟩
    | nil =>
      -- it would end a pair around the inner statement, at whose end that pair is still open
      have outerCloses := (embeds.is_inside inside .parenClose).trans closes
      have after := embeds.level (Nat.succ_le_of_lt inside)
      rw [level_of_close closes, level, Nat.succ_eq_add_one, Nat.add_right_comm,
        level_of_close outerCloses, embeds.level (Nat.le_of_lt inside), level] at after
      have shorter := congrArg List.length after
      rw [level] at innermost
      simp only [List.map_nil, List.nil_append, List.tail_nil, List.length_tail] at shorter innermost
      have some_ : 0 < (t.level n).length := by
        cases found : t.level n with
        | nil =>
          rw [found] at innermost
          cases innermost
        | cons _ _ => simp
      omega
  · rintro ⟨inner, ⟨closes, innermost⟩, rfl⟩
    refine ⟨closes, ?_⟩
    rw [List.head?_append, List.head?_map, innermost]
    rfl

/-- An opening parenthesis begins the pair that it begins in the inner statement. -/
theorem mem_pairs_opening (inside : i < s.size) {closing : Nat} :
    (i + n, closing) ∈ t.pairs ↔ ∃ inner, (i, inner) ∈ s.pairs ∧ closing = inner + n := by
  constructor
  · intro pair
    obtain ⟨later, _⟩ := embeds.whole.paired _ _ pair
    obtain ⟨inner, rfl⟩ := Nat.exists_eq_add_of_le' (show n ≤ closing by omega)
    have innermost := List.mem_of_mem_head? (embeds.whole.pair_iff.mp pair).2
    have notOuter : i + n ∉ t.level n := fun listed => by
      have := (level_mem listed).1
      omega
    have before : inner < s.size := by
      by_contra past
      have open_ : i + n ∈ t.level (s.size + n) :=
        (mem_level_of_le (by omega) innermost).resolve_right (by omega)
      rw [embeds.level (Nat.le_refl _), embeds.closed] at open_
      exact notOuter (by simpa using open_)
    obtain ⟨opening, listed, same⟩ := (embeds.mem_pairs_closing before).mp pair
    obtain rfl : i = opening := by omega
    exact ⟨inner, listed, rfl⟩
  · rintro ⟨inner, pair, rfl⟩
    exact (embeds.mem_pairs_closing (embeds.inner.paired _ _ pair).2).mpr ⟨i, pair, rfl⟩

theorem partner (inside : i < s.size) : t.partner (i + n) = (s.partner i).map (· + n) := by
  refine Option.ext fun other => ?_
  rw [embeds.whole.partner_iff, embeds.mem_pairs_opening inside, embeds.mem_pairs_closing inside,
    Option.map_eq_some_iff]
  simp only [embeds.inner.partner_iff]
  constructor
  · rintro (⟨inner, pair, rfl⟩ | ⟨inner, pair, rfl⟩)
    · exact ⟨inner, Or.inl pair, rfl⟩
    · exact ⟨inner, Or.inr pair, rfl⟩
  · rintro ⟨inner, pair | pair, rfl⟩
    · exact Or.inl ⟨inner, pair, rfl⟩
    · exact Or.inr ⟨inner, pair, rfl⟩

theorem partner_lt {closing : Nat} (found : s.partner i = some closing) : closing < s.size :=
  embeds.inner.paired.partner_lt found

end Embeds

end Statement

end AnnotatedSql
