import AnnotatedSql.Proofs.Statement.Items
import AnnotatedSql.Statement.Body
import Mathlib.Order.Bounds.Defs

/-!
# Parentheses of a statement

Whether a parenthesis encloses a token shows from its partner: it begins before the token, and it has no
partner or one after the token. What the statement knows of a token is the innermost parenthesis that
encloses it, and going outwards from there meets all of them in turn. None of this needs the
parentheses to be balanced: a closing one that ends nothing has no partner, and an opening one that
nothing ends encloses everything after it.
-/

namespace AnnotatedSql

namespace Statement

/-- The parenthesis at `opening` begins before token `i`, and no partner ends it up to there. -/
structure Encloses (s : Statement) (opening i : Nat) : Prop where
  opens : s.is opening .parenOpen = true
  before : opening < i
  inside : i < s.size
  stays : ∀ closing, s.partner opening = some closing → i < closing

/-- The level tells what is around a token, and nothing is around what is no token. -/
structure Bracketed (s : Statement) : Prop extends s.Levelled where
  beyond : ∀ {i}, s.size ≤ i → s.enclosing i = none

theorem ofLexemes_bracketed (lexemes : List Lexeme) : (ofLexemes lexemes).Bracketed := by
  refine ⟨ofLexemes_levelled lexemes, fun {i} past => ?_⟩
  have past : lexemes.length ≤ i := by simpa [size, ofLexemes] using past
  have around : (ofLexemes lexemes).around[i]? = _ :=
    (List.getElem?_toArray ..).trans (Nesting.around_get 0 [] (lexemes.map (·.kind)) i)
  rw [enclosing, around, List.getElem?_eq_none (by simpa using past)]
  rfl

variable {s : Statement} {opening closing i : Nat}

/-! ## What is open -/

/-- What was opened later lies on top. -/
theorem level_pairwise (s : Statement) (i : Nat) : (s.level i).Pairwise (· > ·) := by
  induction i with
  | zero => exact .nil
  | succ i ih =>
    by_cases opens : s.is i .parenOpen = true
    · rw [level_of_open opens]
      exact List.pairwise_cons.mpr ⟨fun _ open_ => (level_mem open_).1, ih⟩
    by_cases closes : s.is i .parenClose = true
    · rw [level_of_close closes]
      exact ih.sublist (List.tail_sublist _)
    · rw [level_of_plain (Bool.eq_false_iff.mpr opens) (Bool.eq_false_iff.mpr closes)]
      exact ih

/-- A parenthesis is open before a token unless its partner stands before that token. -/
theorem Levelled.mem_level_iff (levelled : s.Levelled) : opening ∈ s.level i ↔
    s.is opening .parenOpen = true ∧ opening < i ∧
      ∀ closing, s.partner opening = some closing → i ≤ closing := by
  constructor
  · intro open_
    obtain ⟨before, opens⟩ := level_mem open_
    refine ⟨opens, before, fun closing paired => ?_⟩
    by_contra past
    obtain ⟨after, level⟩ := levelled.level_of_partner opens paired
    -- after its partner only those are open that were open before it
    have still : opening ∈ s.level (closing + 1) :=
      (mem_level_of_le (by omega) open_).resolve_right (by omega)
    rw [level] at still
    exact Nat.lt_irrefl _ (level_mem still).1
  · rintro ⟨opens, before, stays⟩
    by_contra closed
    obtain ⟨closing, _, past, paired⟩ := levelled.closed_between opens before closed
    have := stays closing (levelled.partner_of_opening paired)
    omega

/-! ## What encloses a token -/

namespace Bracketed

variable (bracketed : s.Bracketed)

include bracketed

/-- Nothing is around what is no token. -/
theorem enclosers_beyond (past : s.size ≤ i) : s.enclosers i = [] := by
  rw [enclosers, bracketed.beyond past]
  cases i <;> rfl

/-- The parentheses around a token, innermost first, are those that enclose it. -/
theorem mem_enclosers_iff : opening ∈ s.enclosers i ↔ s.Encloses opening i := by
  cases found : s.kind? i with
  | none =>
    have past := kind_eq_none_iff.mp found
    rw [bracketed.enclosers_beyond past]
    constructor
    · intro listed
      cases listed
    · exact fun encloses => absurd encloses.inside (Nat.not_lt.mpr past)
  | some kind =>
    have inside := lt_size_of_kind found
    rw [bracketed.enclosers_eq found]
    unfold Nesting.outside
    split
    next closes =>
      subst closes
      have closes : s.is i .parenClose = true := by rw [is, found]; rfl
      rw [← level_of_close closes, bracketed.mem_level_iff]
      constructor
      · rintro ⟨opens, before, stays⟩
        have apart : opening ≠ i := by
          rintro rfl
          rw [is_eq_false opens (by simp)] at closes
          cases closes
        exact ⟨opens, by omega, inside, stays⟩
      · rintro ⟨opens, before, _, stays⟩
        exact ⟨opens, by omega, stays⟩
    next noClose =>
      rw [bracketed.mem_level_iff]
      constructor
      · rintro ⟨opens, before, stays⟩
        refine ⟨opens, before, inside, fun closing paired => ?_⟩
        refine Nat.lt_of_le_of_ne (stays closing paired) ?_
        rintro rfl
        have closes := bracketed.closes (bracketed.pair_of_partner opens paired)
        rw [is, found, beq_iff_eq] at closes
        exact noClose (Option.some.inj closes)
      · rintro ⟨opens, before, _, stays⟩
        exact ⟨opens, before, fun closing paired => Nat.le_of_lt (stays closing paired)⟩

theorem enclosers_pairwise (i : Nat) : (s.enclosers i).Pairwise (· > ·) := by
  cases found : s.kind? i with
  | none =>
    rw [bracketed.enclosers_beyond (kind_eq_none_iff.mp found)]
    exact .nil
  | some kind =>
    rw [bracketed.enclosers_eq found]
    unfold Nesting.outside
    split
    · exact (level_pairwise s i).sublist (List.tail_sublist _)
    · exact level_pairwise s i

theorem enclosers_head (i : Nat) : (s.enclosers i).head? = s.enclosing i := by
  cases found : s.kind? i with
  | none =>
    have past := kind_eq_none_iff.mp found
    rw [bracketed.enclosers_beyond past, bracketed.beyond past]
    rfl
  | some kind => rw [bracketed.enclosers_eq found, bracketed.enclosing_eq found]

/-- Around a parenthesis that encloses a token is what encloses the token further out. -/
theorem enclosers_of_cons {outer : List Nat} (around : s.enclosers i = opening :: outer) :
    s.enclosers opening = outer := by
  have encloses := bracketed.mem_enclosers_iff.mp (by rw [around]; exact List.mem_cons_self)
  obtain ⟨kind, found⟩ := exists_kind_of_lt encloses.inside
  obtain ⟨above, open_⟩ : ∃ above, s.level i = above ++ opening :: outer := by
    rw [bracketed.enclosers_eq found] at around
    unfold Nesting.outside at around
    split at around
    · obtain ⟨above, whole⟩ := List.tail_suffix (s.level i)
      exact ⟨above, by rw [← whole, around]⟩
    · exact ⟨[], around⟩
  have opens := (level_mem (show opening ∈ s.level i by simp [open_])).2
  rw [(bracketed.enclosers_of_level (closesNothing_of_is opens (by simp))).1, level_of_mem open_]

/-- The same holds further out. -/
theorem enclosers_of_append {inner outer : List Nat}
    (around : s.enclosers i = inner ++ opening :: outer) : s.enclosers opening = outer := by
  induction inner generalizing i with
  | nil => exact bracketed.enclosers_of_cons around
  | cons first inner ih => exact ih (bracketed.enclosers_of_cons around)

/-- What the statement knows of a token is the innermost parenthesis that encloses it. -/
theorem enclosing_eq_some_iff :
    s.enclosing i = some opening ↔ IsGreatest {outer | s.Encloses outer i} opening := by
  rw [← bracketed.enclosers_head]
  constructor
  · intro first
    obtain ⟨outer, around⟩ := List.head?_eq_some_iff.mp first
    refine ⟨bracketed.mem_enclosers_iff.mp (by rw [around]; exact List.mem_cons_self), ?_⟩
    intro other encloses
    have listed := bracketed.mem_enclosers_iff.mpr encloses
    have sorted := bracketed.enclosers_pairwise i
    rw [around] at listed sorted
    rcases List.mem_cons.mp listed with rfl | further
    · exact Nat.le_refl _
    · exact Nat.le_of_lt (List.rel_of_pairwise_cons sorted further)
  · rintro ⟨encloses, greatest⟩
    obtain ⟨innermost, outer, around⟩ :=
      List.exists_cons_of_ne_nil (List.ne_nil_of_mem (bracketed.mem_enclosers_iff.mpr encloses))
    have listed := bracketed.mem_enclosers_iff.mpr encloses
    have sorted := bracketed.enclosers_pairwise i
    rw [around] at listed sorted ⊢
    rcases List.mem_cons.mp listed with rfl | further
    · rfl
    · have deeper := List.rel_of_pairwise_cons sorted further
      have bound := greatest (bracketed.mem_enclosers_iff.mp (by rw [around]; exact List.mem_cons_self))
      omega

theorem enclosing_eq_none_iff : s.enclosing i = none ↔ ∀ opening, ¬s.Encloses opening i := by
  rw [← bracketed.enclosers_head, List.head?_eq_none_iff, List.eq_nil_iff_forall_not_mem]
  exact forall_congr' fun opening => not_congr bracketed.mem_enclosers_iff

end Bracketed

/-! ## Pairs -/

/-- How the parentheses of a statement belong together, whether or not they are balanced. -/
structure WellNested (s : Statement) : Prop where
  /-- Of two partners one opens, and the other closes after it. -/
  partners : ∀ {i j}, s.partner i = some j →
    i < j ∧ s.is i .parenOpen = true ∧ s.is j .parenClose = true ∨
      j < i ∧ s.is j .parenOpen = true ∧ s.is i .parenClose = true
  symmetric : ∀ {i j}, s.partner i = some j → s.partner j = some i
  /-- Of two pairs, the one that begins later begins after the end of the other or ends before it. -/
  nestedOrDisjoint : ∀ {first last opening closing}, s.partner first = some last → first < last →
    s.partner opening = some closing → opening < closing → first < opening →
      last < opening ∨ closing < last
  /-- After an opening parenthesis without a partner every closing one has a partner. -/
  answered : ∀ {opening i}, s.is opening .parenOpen = true → s.partner opening = none →
    opening < i → s.is i .parenClose = true → (s.partner i).isSome = true
  enclosing_some : ∀ {i opening},
    s.enclosing i = some opening ↔ IsGreatest {outer | s.Encloses outer i} opening
  enclosing_none : ∀ {i}, s.enclosing i = none ↔ ∀ opening, ¬s.Encloses opening i

namespace Levelled

variable (levelled : s.Levelled)

include levelled

/-- A partner that comes later ends a pair. -/
theorem pair_of_lt (partners : s.partner opening = some closing) (later : opening < closing) :
    (opening, closing) ∈ s.pairs := by
  refine (levelled.partner_iff.mp partners).resolve_right fun pair => ?_
  exact Nat.lt_asymm later (levelled.paired _ _ pair).1

/-- A pair that begins within another one ends within it. -/
theorem pair_within {first last : Nat} (outer : (first, last) ∈ s.pairs)
    (inner : (opening, closing) ∈ s.pairs) (begins : first < opening) (within : opening < last) :
    closing < last := by
  by_contra past
  have open_ : opening ∈ s.level last := by
    refine levelled.mem_level_iff.mpr ⟨levelled.opens inner, within, fun other partners => ?_⟩
    rw [levelled.partner_of_opening inner] at partners
    cases partners
    omega
  -- the closing parenthesis ends what was opened last
  obtain ⟨rest, level⟩ := List.head?_eq_some_iff.mp (levelled.pair_iff.mp outer).2
  have sorted := level_pairwise s last
  rw [level] at open_ sorted
  rcases List.mem_cons.mp open_ with rfl | under
  · exact Nat.lt_irrefl _ begins
  · exact Nat.lt_asymm begins (List.rel_of_pairwise_cons sorted under)

/-- A closing parenthesis ends something while anything is open. -/
theorem partner_of_open (open_ : opening ∈ s.level i) (closes : s.is i .parenClose = true) :
    (s.partner i).isSome = true := by
  obtain ⟨innermost, outer, level⟩ := List.exists_cons_of_ne_nil (List.ne_nil_of_mem open_)
  have paired : (innermost, i) ∈ s.pairs := levelled.pair_iff.mpr ⟨closes, by rw [level]; rfl⟩
  rw [levelled.partner_of_closing paired]
  rfl

end Levelled

end Statement

/-- The parentheses of every body are well nested. -/
theorem Body.statement_wellNested (body : Body) : body.statement.WellNested := by
  have bracketed : body.statement.Bracketed := Statement.ofLexemes_bracketed _
  have levelled := bracketed.toLevelled
  refine ⟨fun partners => ?_, fun partners => ?_, ?_, fun opens alone before closes => ?_,
    bracketed.enclosing_eq_some_iff, bracketed.enclosing_eq_none_iff⟩
  · rcases levelled.partner_iff.mp partners with begins | ends
    · exact Or.inl ⟨(levelled.paired _ _ begins).1, levelled.opens begins, levelled.closes begins⟩
    · exact Or.inr ⟨(levelled.paired _ _ ends).1, levelled.opens ends, levelled.closes ends⟩
  · exact levelled.partner_iff.mpr (levelled.partner_iff.mp partners).symm
  · intro first last opening closing outer begins inner later after
    have outer := levelled.pair_of_lt outer begins
    have inner := levelled.pair_of_lt inner later
    refine (Nat.lt_or_ge last opening).imp_right fun within => ?_
    refine levelled.pair_within outer inner after (Nat.lt_of_le_of_ne within ?_)
    rintro rfl
    exact levelled.not_begins_of_ends outer inner
  · refine levelled.partner_of_open (levelled.mem_level_iff.mpr ⟨opens, before, ?_⟩) closes
    rw [alone]
    exact nofun

end AnnotatedSql
