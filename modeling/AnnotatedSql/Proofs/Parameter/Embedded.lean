import AnnotatedSql.Proofs.Parameter.Acceptance
import AnnotatedSql.Proofs.Statement.EmbeddedSteps

/-!
# Placeholders of queries in parentheses

A query stands in a statement that is nothing but the query and parentheses around it. Its
placeholders are those of the statement, as many tokens further on, with the same keys and the same
casts: what is read around a placeholder never leads out of the query, whose first word none of it
passes. So binding gives the same table.
-/

namespace AnnotatedSql

/-- The parameter, its tokens `n` further on. -/
def Parameter.moved (n : Nat) (parameter : Parameter) : Parameter :=
  { parameter with
    hint := parameter.hint.map (TypeName.moved n)
    occurrences := parameter.occurrences.map (· + n) }

namespace Statement

/-- The statement `s` is a query that stands in `t` from token `n` on. Nothing around it is a word or
a placeholder. -/
structure WrappedIn (n : Nat) (s t : Statement) : Prop extends Embeds n s t where
  begins : s.isOneOf 0 ["select", "with"] = true
  around : ∀ {i}, i < n ∨ s.size + n ≤ i → t.isWord i = false ∧ t.isParam i = false

/-- The tokens from `lo` to `hi` do not begin the statement, and they end at the level that they
begin at. -/
structure IsOperand (s : Statement) (lo hi : Nat) : Prop where
  later : 0 < lo
  ordered : lo ≤ hi
  inside : hi < s.size
  begins : s.ClosesNothing lo
  level : s.level (hi + 1) = s.level lo

namespace WrappedIn

variable {n : Nat} {s t : Statement} (wrapped : s.WrappedIn n t) {i lo hi : Nat}

include wrapped

/-! ## The first word -/

theorem exists_first : ∃ keyword ∈ ["select", "with"], s.isKeyword 0 keyword = true :=
  List.any_eq_true.mp wrapped.begins

theorem is_first {kind : TokenKind} (other : kind ≠ .ident) : s.is 0 kind = false := by
  obtain ⟨_, _, word⟩ := wrapped.exists_first
  exact is_eq_false (is_of_keyword word) other.symm

theorem isKeyword_first {keyword : String} (other : foldCase keyword ∉ ["select", "with"]) :
    s.isKeyword 0 keyword = false := by
  obtain ⟨first, listed, word⟩ := wrapped.exists_first
  refine Bool.eq_false_iff.mpr fun found => other ?_
  have small : ∀ first ∈ ["select", "with"], foldCase first = first := by simp [foldCase_eq_ofList]
  rw [foldCase_eq_of_keyword found word, small first listed]
  exact listed

theorem isClauseKeyword_first : s.isClauseKeyword 0 = true := by
  obtain ⟨first, listed, word⟩ := wrapped.exists_first
  have clauses : ∀ first ∈ ["select", "with"], first ∈ clauseKeywords := by decide
  exact List.any_eq_true.mpr ⟨first, clauses first listed, word⟩

theorem later_of_is {kind : TokenKind} (found : s.is i kind = true) (other : kind ≠ .ident) :
    0 < i := by
  refine Nat.pos_of_ne_zero ?_
  rintro rfl
  rw [wrapped.is_first other] at found
  cases found

theorem later_of_keyword {keyword : String} (found : s.isKeyword i keyword = true)
    (other : foldCase keyword ∉ ["select", "with"]) : 0 < i := by
  refine Nat.pos_of_ne_zero ?_
  rintro rfl
  rw [wrapped.isKeyword_first other] at found
  cases found

omit wrapped in
theorem exists_param (param : s.isParam i = true) :
    ∃ kind, s.is i kind = true ∧ kind.isParam = true := by
  obtain ⟨kind, found, isParam⟩ := (Option.any_eq_true _ _).mp param
  exact ⟨kind, by rw [Statement.is, found]; exact beq_self_eq_true _, isParam⟩

/-! ## Parentheses around placeholders -/

theorem isCall (later : 0 < i) (inside : i ≤ s.size) : t.isCall (i + n) = s.isCall i := by
  unfold Statement.isCall
  have before : i - 1 < s.size := by omega
  rw [show i + n - 1 = i - 1 + n by omega, wrapped.is_inside before, wrapped.isClauseKeyword before]
  simp [later, Nat.add_pos_left later]

theorem widen {f g : Nat} (operand : s.IsOperand lo hi) (enough : lo ≤ f) (enoughToo : lo ≤ g) :
    t.widen g (lo + n) (hi + n) = movedRange n (s.widen f lo hi) ∧
      s.IsOperand (s.widen f lo hi).1 (s.widen f lo hi).2 := by
  induction f generalizing g lo hi with
  | zero => exact absurd operand.later (by omega)
  | succ f ih =>
    have later := operand.later
    have inside : lo - 1 < s.size := Nat.lt_of_le_of_lt (Nat.sub_le lo 1) operand.begins.1
    obtain ⟨g, rfl⟩ : ∃ less, g = less + 1 := ⟨g - 1, by omega⟩
    unfold Statement.widen
    rw [show lo + n - 1 = lo - 1 + n by omega, wrapped.is_inside inside, wrapped.partner inside]
    cases opens : s.is (lo - 1) .parenOpen with
    | false => simpa [movedRange] using operand
    | true =>
      have first := wrapped.later_of_is opens (by simp)
      have ends : ((s.partner (lo - 1)).map (· + n) == some (hi + n + 1)) =
          (s.partner (lo - 1) == some (hi + 1)) := by
        rw [Nat.add_right_comm, map_beq_moved]
      rw [wrapped.isCall first (Nat.le_of_lt inside), ends]
      simp only [later, Nat.add_pos_left later, decide_true, Bool.true_and]
      split
      next grouped =>
        have paired : s.partner (lo - 1) = some (hi + 1) :=
          eq_of_beq (Bool.and_eq_true_iff.mp grouped).1
        rw [Nat.add_right_comm hi n 1]
        exact ih ⟨first, by have := operand.ordered; omega, wrapped.partner_lt paired,
          closesNothing_of_is opens (by simp), (wrapped.inner.level_of_partner opens paired).2⟩
          (by omega) (by omega)
      · exact ⟨rfl, operand⟩

/-- A placeholder is an operand. -/
theorem isOperand_of_param (param : s.isParam i = true) : s.IsOperand i i := by
  obtain ⟨kind, found, isParam⟩ := exists_param param
  have other : kind ≠ .ident ∧ kind ≠ .parenOpen ∧ kind ≠ .parenClose := by
    cases kind <;> simp_all [TokenKind.isParam]
  exact ⟨wrapped.later_of_is found other.1, Nat.le_refl i, lt_size_of_is found,
    closesNothing_of_is found other.2.2, level_of_is found other.2.1 other.2.2⟩

theorem unwrapParens (param : s.isParam i = true) :
    t.unwrapParens (i + n) (i + n) = movedRange n (s.unwrapParens i i) ∧
      s.IsOperand (s.unwrapParens i i).1 (s.unwrapParens i i).2 :=
  wrapped.widen (wrapped.isOperand_of_param param) (Nat.le_refl i) (Nat.le_add_right i n)

/-! ## Casts -/

/-- Whether a keyword stands two tokens before a range that a parenthesis opens. -/
theorem opensAfter (later : 0 < lo) (inside : lo ≤ s.size) {keyword : String} :
    (decide (2 ≤ lo + n) && t.is (lo + n - 1) .parenOpen && t.isKeyword (lo + n - 2) keyword) =
      (decide (2 ≤ lo) && s.is (lo - 1) .parenOpen && s.isKeyword (lo - 2) keyword) := by
  rcases Nat.lt_or_ge lo 2 with first | further
  · obtain rfl : lo = 1 := by omega
    have noOpen : s.is 0 .parenOpen = false := wrapped.is_first (by simp)
    have noOpenToo := (wrapped.is_inside (Nat.lt_of_lt_of_le later inside) .parenOpen).trans noOpen
    rw [show 1 + n - 1 = 0 + n by omega, noOpenToo]
    simp
  · rw [show lo + n - 1 = lo - 1 + n by omega, show lo + n - 2 = lo - 2 + n by omega,
      wrapped.is_inside (by omega), wrapped.isKeyword_inside (by omega)]
    simp [further, Nat.le_add_right_of_le further]

/-- The type name that colons lead to. -/
theorem castType (inside : hi < s.size) :
    (if t.is (hi + n + 1) .doubleColon then t.typeName? (hi + n + 2) else none) =
      (if s.is (hi + 1) .doubleColon then s.typeName? (hi + 2) else none).map (TypeName.moved n) := by
  rw [Nat.add_right_comm, wrapped.is (Nat.succ_le_of_lt inside) (by simp)]
  split
  next colons =>
    rw [Nat.add_right_comm]
    exact wrapped.typeName
      (wrapped.typeWord_after (lt_size_of_is colons) (by simp [Statement.takesName, colons]))
  · rfl

theorem castTarget (operand : s.IsOperand lo hi) :
    t.castTarget? (lo + n) (hi + n) = (s.castTarget? lo hi).map (TypeName.moved n) := by
  unfold castTarget?
  rw [wrapped.opensAfter operand.later (Nat.le_of_lt operand.begins.1), Nat.add_right_comm hi n 1,
    wrapped.isKeyword (Nat.succ_le_of_lt operand.inside) (by simp [foldCase_eq_ofList])]
  split
  next found =>
    obtain ⟨open_, separates⟩ := Bool.and_eq_true_iff.mp found
    have word := wrapped.typeWord_after (lt_size_of_keyword separates)
      (by simp [Statement.takesName, separates])
    have before : lo - 1 < s.size := Nat.lt_of_le_of_lt (Nat.sub_le lo 1) operand.begins.1
    have later := operand.later
    rw [Nat.add_right_comm hi n 2, wrapped.typeName word, show lo + n - 1 = lo - 1 + n by omega,
      wrapped.partner before]
    cases s.typeName? (hi + 2) with
    | none => rfl
    | some type =>
      have ends : ((s.partner (lo - 1)).map (· + n) == some (type.moved n).hi) =
          (s.partner (lo - 1) == some type.hi) := map_beq_moved ..
      simp only [Option.map_some, Option.filter_some, ends]
      split <;> rfl
  · rfl

/-- A placeholder is cast to the same type. -/
theorem castHint (param : s.isParam i = true) :
    t.castHint? (i + n) = (s.castHint? i).map (TypeName.moved n) := by
  obtain ⟨range, operand⟩ := wrapped.unwrapParens param
  have type := wrapped.castType operand.inside
  have colons := wrapped.is (Nat.succ_le_of_lt operand.inside)
    (show TokenKind.doubleColon ≠ .ident ∧ _ by simp)
  unfold castHint?
  rw [range]
  dsimp only [movedRange, Prod.map]
  rw [Nat.add_right_comm, colons] at type ⊢
  split
  next found =>
    rw [if_pos found, if_pos found] at type
    exact type
  · exact wrapped.castTarget operand

/-- It forms the same operand with its cast. -/
theorem operand (param : s.isParam i = true) :
    t.operand (i + n) = movedRange n (s.operand i) ∧
      s.IsOperand (s.operand i).1 (s.operand i).2 := by
  obtain ⟨range, operand⟩ := wrapped.unwrapParens param
  have alone := wrapped.isOperand_of_param param
  unfold Statement.operand
  rw [range]
  dsimp only [movedRange, Prod.map]
  rw [wrapped.castType operand.inside]
  cases cast : if s.is ((s.unwrapParens i i).2 + 1) .doubleColon then
      s.typeName? ((s.unwrapParens i i).2 + 2) else none with
  | some type =>
    have read : s.is ((s.unwrapParens i i).2 + 1) .doubleColon = true ∧
        s.typeName? ((s.unwrapParens i i).2 + 2) = some type := by
      split at cast
      next colons => exact ⟨colons, cast⟩
      · cases cast
    obtain ⟨_, _, ends⟩ := wrapped.inner.paired.typeName_bounds read.2
    have later := wrapped.inner.typeName_later read.2
    have := operand.ordered
    refine ⟨Prod.ext rfl ?_, operand.later, by dsimp only; omega, by dsimp only; omega,
      operand.begins, ?_⟩
    · simp [TypeName.moved]
      omega
    · dsimp only
      rw [show type.hi - 1 + 1 = type.hi by omega, wrapped.inner.level_typeName read.2,
        level_of_is read.1 (by simp) (by simp), operand.level]
  | none =>
    dsimp only [Option.map_none]
    rw [wrapped.opensAfter alone.later (Nat.le_of_lt alone.inside)]
    split
    next call =>
      obtain ⟨⟨further, opens⟩, keyword⟩ :=
        (Bool.and_eq_true_iff.trans (and_congr_left' Bool.and_eq_true_iff)).mp call
      have further : 2 ≤ i := of_decide_eq_true further
      have first := wrapped.later_of_keyword keyword (by simp [foldCase_eq_ofList])
      rw [show i + n - 1 = i - 1 + n by omega, show i + n - 2 = i - 2 + n by omega,
        wrapped.partner (lt_size_of_is opens)]
      cases paired : s.partner (i - 1) with
      | none => exact ⟨rfl, alone⟩
      | some closing =>
        have pair := wrapped.inner.level_of_partner opens paired
        refine ⟨rfl, first, by dsimp only; omega, wrapped.partner_lt paired,
          closesNothing_of_is (is_of_keyword keyword) (by simp), ?_⟩
        have outside := level_of_keyword keyword
        rw [show i - 2 + 1 = i - 1 by omega] at outside
        exact pair.2.trans outside
    · exact ⟨rfl, alone⟩

/-! ## What stands beside them -/

theorem isComparison (inside : i ≤ s.size) : t.isComparison (i + n) = s.isComparison i := by
  have kinds : (t.kind? (i + n)).any TokenKind.isComparison =
      (s.kind? i).any TokenKind.isComparison := by
    rcases Nat.eq_or_lt_of_le inside with rfl | before
    · rw [Embeds.kind_past, Option.any_none, Bool.eq_false_iff]
      intro found
      obtain ⟨kind, read, comparison⟩ := (Option.any_eq_true _ _).mp found
      have other : t.is (s.size + n) kind = false :=
        wrapped.is_after (by cases kind <;> simp_all [TokenKind.isComparison])
      rw [Statement.is, read, beq_self_eq_true] at other
      cases other
    · rw [wrapped.kind before]
  unfold Statement.isComparison
  rw [kinds, wrapped.isOneOf inside (by simp [foldCase_eq_ofList])]

omit wrapped in
theorem lt_size_of_comparison (compares : s.isComparison i = true) : i < s.size := by
  rcases Bool.or_eq_true_iff.mp compares with kind | word
  · obtain ⟨kind, found, _⟩ := (Option.any_eq_true _ _).mp kind
    exact lt_size_of_kind found
  · obtain ⟨keyword, _, found⟩ := List.any_eq_true.mp word
    exact lt_size_of_keyword found

theorem isComparison_first : s.isComparison 0 = false := by
  obtain ⟨first, _, word⟩ := wrapped.exists_first
  have kind : s.kind? 0 = some .ident := eq_of_beq (is_of_keyword word)
  have like := wrapped.isKeyword_first (show foldCase "like" ∉ _ by simp [foldCase_eq_ofList])
  have ilike := wrapped.isKeyword_first (show foldCase "ilike" ∉ _ by simp [foldCase_eq_ofList])
  simp [Statement.isComparison, kind, TokenKind.isComparison, isOneOf, like, ilike]

theorem columnEndingAt (inside : i < s.size) : t.columnEndingAt? (i + n) =
    (s.columnEndingAt? i).map fun (name, start) => (name, start + n) := by
  unfold columnEndingAt?
  rw [wrapped.name inside, wrapped.isClauseKeyword inside]
  cases s.name? i with
  | none => rfl
  | some column =>
    dsimp only [Option.bind_eq_bind, Option.bind_some]
    split
    · rfl
    next free =>
      have later : 0 < i := by
        refine Nat.pos_of_ne_zero ?_
        rintro rfl
        exact free wrapped.isClauseKeyword_first
      have ends : ∀ start ≤ i,
          (decide (0 < start + n) && (t.is (start + n - 1) .dot || t.is (start + n - 1) .doubleColon)) =
            (decide (0 < start) && (s.is (start - 1) .dot || s.is (start - 1) .doubleColon)) := by
        intro start bound
        rcases Nat.eq_zero_or_pos start with rfl | further
        · rcases Nat.eq_zero_or_pos n with rfl | around
          · rfl
          · simp [is_eq_false (wrapped.before around)]
        · rw [show start + n - 1 = start - 1 + n by omega, wrapped.is_inside (by omega),
            wrapped.is_inside (by omega)]
          simp [further, Nat.add_pos_left further]
      have qualified : (decide (2 ≤ i + n) && t.is (i + n - 1) .dot) =
          (decide (2 ≤ i) && s.is (i - 1) .dot) := by
        rw [show i + n - 1 = i - 1 + n by omega, wrapped.is_inside (by omega)]
        rcases Nat.lt_or_ge i 2 with first | further
        · obtain rfl : i = 1 := by omega
          simp [wrapped.is_first]
        · simp [further, Nat.le_add_right_of_le further]
      rw [qualified]
      split
      next dot =>
        have further : 2 ≤ i := by simpa using (Bool.and_eq_true_iff.mp dot).1
        rw [show i + n - 2 = i - 2 + n by omega, wrapped.name (by omega)]
        cases s.name? (i - 2) with
        | none => rfl
        | some qualifier =>
          dsimp only [Option.map_some, Option.bind_some]
          rw [ends (i - 2) (Nat.sub_le i 2)]
          split <;> rfl
      · change (if _ then none else _) = Option.map _ (if _ then none else _)
        rw [ends i (Nat.le_refl i)]
        split <;> rfl

theorem columnAt (inside : i < s.size) : t.columnAt? (i + 1 + n) =
    (s.columnAt? (i + 1)).map fun (name, next) => (name, next + n) := by
  unfold columnAt?
  have path : t.columnPath? (i + 1 + n) =
      (s.columnPath? (i + 1)).map fun (name, next) => (name, next + n) := by
    rcases Nat.eq_or_lt_of_le (Nat.succ_le_of_lt inside) with last | before
    · -- a word there would combine queries
      have last : i + 1 = s.size := last
      rw [last]
      have none_ : s.columnPath? s.size = none := by
        simp [columnPath?, name_of_not_word Embeds.isWord_past]
      rw [none_]
      unfold columnPath?
      split
      · rfl
      next free =>
        rw [wrapped.name_of_free (Nat.le_refl _) (by simpa using free),
          name_of_not_word Embeds.isWord_past]
        rfl
    · exact wrapped.columnPath before
  rw [path]
  cases read : s.columnPath? (i + 1) with
  | none => rfl
  | some found =>
    have ends := (columnPath_bounds read).2
    simp only [Option.map_some, Option.filter_some]
    rw [wrapped.is ends (by simp), wrapped.is ends (by simp), wrapped.is ends (by simp)]
    split <;> rfl

omit wrapped in
theorem beforeNot_lt {last : Nat} (found : s.beforeNot? i = some last) : last < i := by
  unfold Statement.beforeNot? at found
  split at found
  · cases found
  · split at found
    · split at found
      · cases found
      · cases found
        omega
    · cases found
      exact Nat.lt_succ_self _

theorem beforeNot (later : 0 < i) (inside : i ≤ s.size) :
    t.beforeNot? (i + n) = (s.beforeNot? i).map (· + n) := by
  obtain ⟨last, rfl⟩ : ∃ last, i = last + 1 := ⟨i - 1, by omega⟩
  rw [Nat.add_right_comm]
  unfold Statement.beforeNot?
  dsimp only
  rw [wrapped.isKeyword_inside inside]
  split
  next word =>
    have first := wrapped.later_of_keyword word (by simp [foldCase_eq_ofList])
    obtain ⟨before, rfl⟩ : ∃ before, last = before + 1 := ⟨last - 1, by omega⟩
    rw [Nat.add_right_comm]
    rfl
  · rfl

omit wrapped in
theorem clauseKeywordBefore_le : s.clauseKeywordBefore i ≤ i := by
  induction i with
  | zero => exact Nat.le_refl _
  | succ i ih =>
    unfold Statement.clauseKeywordBefore
    split
    · exact Nat.le_refl _
    · exact Nat.le_succ_of_le ih

/-- The first word of the query starts a clause, so that no other is looked for before it. -/
theorem clauseKeywordBefore (inside : i < s.size) :
    t.clauseKeywordBefore (i + n) = s.clauseKeywordBefore i + n := by
  induction i with
  | zero =>
    have first := (wrapped.isClauseKeyword inside).trans wrapped.isClauseKeyword_first
    cases n with
    | zero => rfl
    | succ n =>
      rw [Nat.zero_add] at first ⊢
      simp [Statement.clauseKeywordBefore, first]
  | succ i ih =>
    have here := wrapped.isClauseKeyword inside
    rw [Nat.add_right_comm] at here ⊢
    unfold Statement.clauseKeywordBefore
    rw [here]
    split
    · exact Nat.add_right_comm ..
    · exact ih (Nat.lt_of_succ_lt inside)

/-! ## Keys -/

theorem paramKey (inside : i < s.size) : t.paramKey? (i + n) = s.paramKey? i := by
  unfold paramKey?
  rw [wrapped.lexeme inside]

/-- The placeholders are those of the query. -/
theorem isParam_iff {j : Nat} : t.isParam j = true ↔ ∃ i, j = i + n ∧ s.isParam i = true := by
  have same : ∀ {i}, i < s.size → t.isParam (i + n) = s.isParam i := fun {i} inside => by
    rw [Statement.isParam, Statement.isParam, wrapped.kind inside]
  constructor
  · intro param
    have inside : ¬(j < n ∨ s.size + n ≤ j) := fun outside => by
      rw [(wrapped.around outside).2] at param
      cases param
    obtain ⟨i, rfl⟩ := Nat.exists_eq_add_of_le' (show n ≤ j by omega)
    exact ⟨i, rfl, (same (by omega)).symm.trans param⟩
  · rintro ⟨i, rfl, param⟩
    exact (same (lt_size_of_param param)).trans param

theorem paramKey_iff {j : Nat} {key : ParamKey} : t.paramKey? j = some key ↔
    ∃ i, j = i + n ∧ s.paramKey? i = some key := by
  constructor
  · intro stands
    obtain ⟨i, rfl, param⟩ := wrapped.isParam_iff.mp (isParam_of_paramKey stands)
    exact ⟨i, rfl, (wrapped.paramKey (lt_size_of_param param)).symm.trans stands⟩
  · rintro ⟨i, rfl, stands⟩
    exact (wrapped.paramKey (lt_size_of_paramKey stands)).trans stands

theorem paramKey_around (outside : i < n ∨ s.size + n ≤ i) : t.paramKey? i = none := by
  cases stands : t.paramKey? i with
  | none => rfl
  | some key =>
    have noParam := (wrapped.around outside).2
    rw [isParam_of_paramKey stands] at noParam
    cases noParam

theorem placeholders : t.placeholders = s.placeholders.map (Prod.map (· + n) id) := by
  have none_ : ∀ {list : List Nat}, (∀ i ∈ list, i < n ∨ s.size + n ≤ i) →
      list.filterMap (fun i => (t.paramKey? i).map (i, ·)) = [] := by
    intro list outside
    refine List.filterMap_eq_nil_iff.mpr fun i member => ?_
    rw [wrapped.paramKey_around (outside i member)]
    rfl
  unfold Statement.placeholders
  rw [wrapped.range_size, List.filterMap_append, List.filterMap_append,
    none_ fun i member => Or.inl (List.mem_range.mp member),
    none_ fun i member => Or.inr (List.mem_range'_1.mp member).1, List.nil_append, List.append_nil,
    List.filterMap_map, List.map_filterMap]
  refine List.filterMap_congr fun i member => ?_
  rw [Function.comp_apply, wrapped.paramKey (List.mem_range.mp member)]
  cases s.paramKey? i <;> rfl

theorem keys : t.keys = s.keys := by
  unfold Statement.keys
  rw [wrapped.placeholders, List.map_map]
  rfl

theorem positions : t.positions = s.positions := by
  unfold Statement.positions
  rw [wrapped.keys]

theorem names : t.names = s.names := by
  unfold Statement.names
  rw [wrapped.keys]

theorem uses (key : ParamKey) : t.Uses key ↔ s.Uses key := by
  rw [uses_iff, uses_iff, wrapped.keys]

theorem occurrences (key : ParamKey) : t.occurrences key = (s.occurrences key).map (· + n) := by
  unfold Statement.occurrences
  rw [wrapped.placeholders, List.filter_map, List.map_map, List.map_map]
  rfl

theorem hint (key : ParamKey) : t.hint? key = (s.hint? key).map (TypeName.moved n) := by
  unfold Statement.hint?
  rw [wrapped.occurrences, List.findSome?_map, ← List.head?_filterMap, ← List.head?_filterMap,
    ← List.head?_map, List.map_filterMap]
  refine congrArg List.head? (List.filterMap_congr fun i member => ?_)
  exact wrapped.castHint (isParam_of_paramKey (mem_occurrences.mp member))

end WrappedIn

end Statement

/-! ## Binding -/

namespace Binding

variable {n : Nat} {s t : Statement} (wrapped : s.WrappedIn n t) (style : BindingStyle)

include wrapped

/-- A query is accepted exactly if it is in parentheses. -/
theorem accepts_wrapped : Accepts style t ↔ Accepts style s := by
  have params : (∀ i, t.isParam i = true → (t.paramKey? i).isSome = true) ↔
      ∀ i, s.isParam i = true → (s.paramKey? i).isSome = true := by
    constructor
    · intro keyed i param
      rw [← wrapped.paramKey (Statement.lt_size_of_param param)]
      exact keyed (i + n) (wrapped.isParam_iff.mpr ⟨i, rfl, param⟩)
    · intro keyed j outer
      obtain ⟨i, rfl, param⟩ := wrapped.isParam_iff.mp outer
      rw [wrapped.paramKey (Statement.lt_size_of_param param)]
      exact keyed i param
  have casts : (∀ key i j first second, t.paramKey? i = some key → t.paramKey? j = some key →
        t.castHint? i = some first → t.castHint? j = some second →
          canonicalType first.text = canonicalType second.text) ↔
      ∀ key i j first second, s.paramKey? i = some key → s.paramKey? j = some key →
        s.castHint? i = some first → s.castHint? j = some second →
          canonicalType first.text = canonicalType second.text := by
    constructor
    · intro agree key i j first second stands standsToo cast castToo
      refine agree key (i + n) (j + n) (first.moved n) (second.moved n)
        (wrapped.paramKey_iff.mpr ⟨i, rfl, stands⟩) (wrapped.paramKey_iff.mpr ⟨j, rfl, standsToo⟩) ?_ ?_
      · rw [wrapped.castHint (Statement.isParam_of_paramKey stands), cast, Option.map_some]
      · rw [wrapped.castHint (Statement.isParam_of_paramKey standsToo), castToo, Option.map_some]
    · intro agree key i' j' first' second' outer outerToo cast castToo
      obtain ⟨i, rfl, stands⟩ := wrapped.paramKey_iff.mp outer
      obtain ⟨j, rfl, standsToo⟩ := wrapped.paramKey_iff.mp outerToo
      rw [wrapped.castHint (Statement.isParam_of_paramKey stands)] at cast
      rw [wrapped.castHint (Statement.isParam_of_paramKey standsToo)] at castToo
      obtain ⟨first, inner, rfl⟩ := Option.map_eq_some_iff.mp cast
      obtain ⟨second, innerToo, rfl⟩ := Option.map_eq_some_iff.mp castToo
      exact agree key i j first second stands standsToo inner innerToo
  rw [accepts_iff_parts, accepts_iff_parts, placeholderFindings_nil, placeholderFindings_nil,
    positionFindings_nil, positionFindings_nil, declarationFindings_harmless,
    declarationFindings_harmless, countFindings_nil, countFindings_nil, params, casts]
  simp only [wrapped.uses]

theorem table_wrapped : table style t = (table style s).map (Parameter.moved n) := by
  have parameters : ∀ key slot,
      parameter style t key slot = (parameter style s key slot).moved n := by
    intro key slot
    have given : slotNames style t = slotNames style s := by
      unfold slotNames
      rw [wrapped.names]
    unfold parameter
    rw [given, wrapped.hint, wrapped.occurrences]
    rfl
  have order : orderedKeys style t = orderedKeys style s := by
    unfold orderedKeys orderedNames
    rw [wrapped.positions, wrapped.names]
  unfold table
  rw [order, List.map_map]
  exact List.map_congr_left fun (key, index) _ => parameters key (index + 1)

end Binding

end AnnotatedSql
