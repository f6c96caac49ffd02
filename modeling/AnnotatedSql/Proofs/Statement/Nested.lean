import AnnotatedSql.Proofs.Statement.Bounds
import AnnotatedSql.Proofs.Statement.Mirrored

/-!
# Nesting of statements

A pair of parentheses consists of an opening and a closing one. Every token in between is enclosed
by that pair or by one deeper inside, and no token is enclosed by a pair that begins after it.
-/

namespace AnnotatedSql

namespace Nesting

variable {index opening closing i : Nat} {opened : List Nat} {kinds : List TokenKind}

/-- A pair that was not open before begins with an opening parenthesis; each ends with a closing
one. -/
theorem kinds_of_pair (paired : (opening, closing) ∈ pairs index opened kinds) :
    (opening ∈ opened ∨ index ≤ opening ∧ kinds[opening - index]? = some .parenOpen) ∧
      index ≤ closing ∧ kinds[closing - index]? = some .parenClose := by
  induction kinds generalizing index opened with
  | nil => cases paired
  | cons kind kinds ih =>
    have later : ∀ {j : Nat} {found : TokenKind}, index + 1 ≤ j →
        kinds[j - (index + 1)]? = some found → (kind :: kinds)[j - index]? = some found := by
      intro j found after at_j
      obtain ⟨further, rfl⟩ := Nat.exists_eq_add_of_le after
      rw [Nat.add_sub_cancel_left] at at_j
      rw [show index + 1 + further - index = further + 1 by omega]
      exact at_j
    have skip : ∀ {others : List Nat}, (opening, closing) ∈ pairs (index + 1) others kinds →
        (opening ∈ others ∨ index ≤ opening ∧ (kind :: kinds)[opening - index]? =
          some .parenOpen) ∧ index ≤ closing ∧
            (kind :: kinds)[closing - index]? = some .parenClose := by
      intro others inRest
      obtain ⟨opens, after, closes⟩ := ih inRest
      refine ⟨opens.imp_right fun ⟨after, found⟩ => ⟨by omega, later after found⟩, by omega, ?_⟩
      exact later after closes
    unfold pairs at paired
    split at paired
    · obtain ⟨opens, closes⟩ := skip paired
      refine ⟨?_, closes⟩
      rcases opens with known | opens
      · rcases List.mem_cons.mp known with rfl | known
        · exact Or.inr ⟨Nat.le_refl _, by simp⟩
        · exact Or.inl known
      · exact Or.inr opens
    next outer =>
      rcases List.mem_cons.mp paired with same | paired
      · cases same
        exact ⟨Or.inl List.mem_cons_self, Nat.le_refl _, by simp⟩
      · obtain ⟨opens, closes⟩ := skip paired
        exact ⟨opens.imp_left (List.mem_cons_of_mem _), closes⟩
    · exact skip paired

/-- The parenthesis around a token stands before it. -/
theorem around_lt (before : ∀ other ∈ opened, other < index) (after : index ≤ i)
    (found : (around index opened kinds)[i - index]? = some (some opening)) : opening < i := by
  induction kinds generalizing index opened with
  | nil => cases found
  | cons kind kinds ih =>
    have step : ∀ {first : List Nat} {others : List Nat}, (∀ other ∈ first, other < index) →
        (∀ other ∈ others, other < index + 1) →
        (first.head? :: around (index + 1) others kinds)[i - index]? = some (some opening) →
          opening < i := by
      intro first others known outside found
      rcases Nat.eq_or_lt_of_le after with rfl | later
      · rw [Nat.sub_self, List.getElem?_cons_zero] at found
        exact known _ (List.mem_of_mem_head? (Option.some.inj found))
      · rw [show i - index = i - (index + 1) + 1 by omega, List.getElem?_cons_succ] at found
        exact ih outside later found
    unfold around at found
    split at found
    · refine step before (fun other member => ?_) found
      rcases List.mem_cons.mp member with rfl | member
      · exact Nat.lt_succ_self _
      · exact Nat.lt_succ_of_lt (before other member)
    next outer =>
      have outside := fun other member => before other (List.mem_cons_of_mem _ member)
      exact step outside (fun other member => Nat.lt_succ_of_lt (outside other member)) found
    · exact step before (fun other member => Nat.lt_succ_of_lt (before other member)) found

/-- A token inside of a pair is enclosed by that pair or by one deeper inside. -/
theorem around_inside (before : ∀ other ∈ opened, other < index)
    (sorted : opened.Pairwise (· > ·)) (paired : (opening, closing) ∈ pairs index opened kinds)
    (after : index ≤ i) (begins : opening < i) (ends : i < closing) :
    ∃ innermost, (around index opened kinds)[i - index]? = some (some innermost) ∧
      opening ≤ innermost := by
  induction kinds generalizing index opened with
  | nil => cases paired
  | cons kind kinds ih =>
    -- `first` are the pairs open around the token at `index`, `others` those after it
    have step : ∀ {first others : List Nat}, first.Pairwise (· > ·) →
        (opening ∈ others → opening < index → opening ∈ first) →
        (∀ other ∈ others, other < index + 1) → others.Pairwise (· > ·) →
        (opening, closing) ∈ pairs (index + 1) others kinds →
        ∃ innermost, (first.head? :: around (index + 1) others kinds)[i - index]? =
          some (some innermost) ∧ opening ≤ innermost := by
      intro first others decreasing known outside further inRest
      rcases Nat.eq_or_lt_of_le after with rfl | later
      · rw [Nat.sub_self, List.getElem?_cons_zero]
        have opensBefore : opening ∈ others := by
          rcases (kinds_of_pair inRest).1 with listed | ⟨past, _⟩
          · exact listed
          · omega
        have listed := known opensBefore begins
        obtain ⟨innermost, rest, rfl⟩ := List.exists_cons_of_ne_nil (List.ne_nil_of_mem listed)
        refine ⟨innermost, rfl, ?_⟩
        rcases List.mem_cons.mp listed with rfl | deeper
        · exact Nat.le_refl _
        · exact Nat.le_of_lt (List.rel_of_pairwise_cons decreasing deeper)
      · rw [show i - index = i - (index + 1) + 1 by omega, List.getElem?_cons_succ]
        exact ih outside further inRest later
    unfold pairs at paired
    unfold around
    split at paired
    · refine step sorted (fun listed earlier => ?_) (fun other member => ?_) ?_ paired
      · rcases List.mem_cons.mp listed with rfl | listed
        · omega
        · exact listed
      · rcases List.mem_cons.mp member with rfl | member
        · exact Nat.lt_succ_self _
        · exact Nat.lt_succ_of_lt (before other member)
      · exact List.pairwise_cons.mpr ⟨before, sorted⟩
    next outer =>
      have outside := fun other member => before other (List.mem_cons_of_mem _ member)
      rcases List.mem_cons.mp paired with same | paired
      · cases same
        omega
      · exact step (List.pairwise_cons.mp sorted).2 (fun listed _ => listed)
          (fun other member => Nat.lt_succ_of_lt (outside other member))
          (List.pairwise_cons.mp sorted).2 paired
    · exact step sorted (fun listed _ => listed)
        (fun other member => Nat.lt_succ_of_lt (before other member)) sorted paired

end Nesting

namespace Statement

/-- Parentheses are paired with parentheses, and what stands between them is nested in them. -/
structure Nested (s : Statement) : Prop where
  opens : ∀ {opening closing}, (opening, closing) ∈ s.pairs → s.is opening .parenOpen = true
  closes : ∀ {opening closing}, (opening, closing) ∈ s.pairs → s.is closing .parenClose = true
  before : ∀ {i opening}, s.enclosing i = some opening → opening < i
  inside : ∀ {opening closing i}, (opening, closing) ∈ s.pairs → opening < i → i < closing →
    ∃ innermost, s.enclosing i = some innermost ∧ opening ≤ innermost

theorem ofLexemes_nested (lexemes : List Lexeme) : (ofLexemes lexemes).Nested := by
  have kind : ∀ i, (ofLexemes lexemes).kind? i = (lexemes.map (·.kind))[i]? := by
    intro i
    simp [kind?, ofLexemes]
  have enclosing : ∀ i, (ofLexemes lexemes).enclosing i =
      (Nesting.around 0 [] (lexemes.map (·.kind)))[i - 0]?.join := by
    intro i
    simp [Statement.enclosing, ofLexemes]
  refine ⟨fun paired => ?_, fun paired => ?_, fun found => ?_, fun paired begins ends => ?_⟩
  · rcases (Nesting.kinds_of_pair paired).1 with open_ | ⟨_, found⟩
    · cases open_
    · rw [is, kind]
      exact beq_iff_eq.mpr found
  · obtain ⟨_, found⟩ := (Nesting.kinds_of_pair paired).2
    rw [is, kind]
    exact beq_iff_eq.mpr found
  · rw [enclosing] at found
    exact Nesting.around_lt (by simp) (Nat.zero_le _) (Option.join_eq_some_iff.mp found)
  · obtain ⟨innermost, found, deeper⟩ :=
      Nesting.around_inside (by simp) .nil paired (Nat.zero_le _) begins ends
    refine ⟨innermost, ?_, deeper⟩
    rw [enclosing]
    exact Option.join_eq_some_iff.mpr found

namespace Nested

variable {s : Statement} (nested : s.Nested)

include nested

/-- What an opening parenthesis is paired with ends the pair. -/
theorem pair_of_partner {opening closing : Nat} (opens : s.is opening .parenOpen = true)
    (paired : s.partner opening = some closing) : (opening, closing) ∈ s.pairs := by
  rcases mem_pairs_of_partner paired with begins | ends
  · exact begins
  · have closes := nested.closes ends
    unfold is at opens closes
    rw [eq_of_beq opens] at closes
    cases eq_of_beq closes

/-- Parentheses at the beginning are a pair that ends before the end. -/
theorem pair_of_group {lo hi closing : Nat} (group : s.leadingGroup? lo hi = some closing) :
    (lo, closing) ∈ s.pairs ∧ closing < hi := by
  obtain ⟨opens, paired, ends⟩ := leadingGroup_parts group
  exact ⟨nested.pair_of_partner opens paired, ends⟩

/-- Parentheses around everything leave no cast at their level. -/
theorem trailingCast_of_group {lo hi closing : Nat} (group : s.leadingGroup? lo hi = some closing)
    (whole : closing + 1 = hi) : s.trailingCast? lo hi = none := by
  have paired := (nested.pair_of_group group).1
  have none : s.lastCast? lo hi = none := by
    refine List.find?_eq_none.mpr fun i member => ?_
    obtain ⟨after, ends⟩ := List.mem_range'_1.mp (List.mem_reverse.mp member)
    rw [Bool.and_eq_true, beq_iff_eq]
    rintro ⟨cast, level⟩
    rcases Nat.lt_or_ge i closing with inside | past
    · obtain ⟨innermost, around, deeper⟩ := nested.inside paired after inside
      have outer := nested.before (level.symm.trans around)
      omega
    · obtain rfl : i = closing := by omega
      have closes := nested.closes paired
      unfold is at cast closes
      rw [eq_of_beq cast] at closes
      cases eq_of_beq closes
  rw [trailingCast?, none]
  rfl

/-- Statements that read alike are nested alike. -/
theorem mirrored {respell : Name → Name} {t : Statement} (mirrors : s.Mirrors respell t) :
    t.Nested where
  opens paired := by
    rw [mirrors.is _ _ (by simp) (by simp)]
    exact nested.opens (mirrors.pairs ▸ paired)
  closes paired := by
    rw [mirrors.is _ _ (by simp) (by simp)]
    exact nested.closes (mirrors.pairs ▸ paired)
  before around := nested.before ((mirrors.enclosing _).symm.trans around)
  inside paired begins ends := by
    rw [mirrors.enclosing]
    exact nested.inside (mirrors.pairs ▸ paired) begins ends

end Nested

end Statement

end AnnotatedSql
