import AnnotatedSql.Proofs.Statement.Nested
import Mathlib.Data.List.Pairwise

/-!
# Partners

No parenthesis belongs to two pairs, so the two of a pair are each other's partners and nothing else
has a partner. Parentheses around tokens that are none are a pair.
-/

namespace AnnotatedSql

namespace Nesting

/-- No two pairs share a parenthesis. -/
theorem pairs_distinct {index : Nat} {opened : List Nat} {kinds : List TokenKind}
    (distinct : opened.Nodup) (before : ∀ outer ∈ opened, outer < index) :
    (pairs index opened kinds).Pairwise fun a b => a.1 ≠ b.1 ∧ a.2 ≠ b.2 := by
  induction kinds generalizing index opened with
  | nil => exact .nil
  | cons kind kinds ih =>
    have later : ∀ outer ∈ opened, outer < index + 1 := fun outer member =>
      Nat.lt_succ_of_lt (before outer member)
    unfold pairs
    split
    · refine ih (List.nodup_cons.mpr ⟨fun listed => ?_, distinct⟩) ?_
      · exact Nat.lt_irrefl _ (before index listed)
      · rintro outer (_ | ⟨_, member⟩)
        · exact Nat.lt_succ_self _
        · exact later outer member
    next first outer =>
      obtain ⟨fresh, distinct⟩ := List.nodup_cons.mp distinct
      refine List.pairwise_cons.mpr ⟨fun ⟨opening, closing⟩ paired => ?_, ih distinct fun other
        member => later other (List.mem_cons_of_mem _ member)⟩
      obtain ⟨opens, after, _⟩ := kinds_of_pair paired
      have bound := before first List.mem_cons_self
      constructor
      · rintro rfl
        rcases opens with listed | ⟨past, _⟩
        · exact fresh listed
        · dsimp only at past
          omega
      · dsimp only
        omega
    · exact ih distinct later

/-- The pairs of the rest of a run are pairs of the run. -/
theorem pairs_append (index : Nat) (opened : List Nat) (first rest : List TokenKind) :
    ∃ stillOpen, pairs (index + first.length) stillOpen rest <:+
      pairs index opened (first ++ rest) := by
  induction first generalizing index opened with
  | nil => exact ⟨opened, List.suffix_rfl⟩
  | cons kind first ih =>
    have skip : ∀ others, ∃ stillOpen, pairs (index + (kind :: first).length) stillOpen rest <:+
        pairs (index + 1) others (first ++ rest) := by
      intro others
      rw [List.length_cons, Nat.add_comm first.length, ← Nat.add_assoc]
      exact ih (index + 1) others
    have step : ∃ others, pairs (index + 1) others (first ++ rest) <:+
        pairs index opened (kind :: (first ++ rest)) := by
      generalize whole : pairs index opened (kind :: (first ++ rest)) = all
      unfold pairs at whole
      split at whole
      · exact ⟨index :: opened, whole ▸ List.suffix_rfl⟩
      next opening outer => exact ⟨outer, whole ▸ List.suffix_cons _ _⟩
      · exact ⟨opened, whole ▸ List.suffix_rfl⟩
    obtain ⟨others, suffix⟩ := step
    obtain ⟨stillOpen, inRest⟩ := skip others
    exact ⟨stillOpen, inRest.trans suffix⟩

/-- Where no parenthesis follows the one that was opened last but a closing one, the two are a
pair. -/
theorem pair_of_flat {index opening : Nat} {opened : List Nat} {inner rest : List TokenKind}
    (flat : ∀ kind ∈ inner, kind ≠ .parenOpen ∧ kind ≠ .parenClose) :
    (opening, index + inner.length) ∈
      pairs index (opening :: opened) (inner ++ .parenClose :: rest) := by
  induction inner generalizing index with
  | nil => exact List.mem_cons_self
  | cons kind inner ih =>
    have skip : (opening, index + 1 + inner.length) ∈
        pairs (index + 1) (opening :: opened) (inner ++ .parenClose :: rest) :=
      ih fun other member => flat other (List.mem_cons_of_mem _ member)
    obtain ⟨noOpen, noClose⟩ := flat kind List.mem_cons_self
    rw [List.cons_append, List.length_cons, Nat.add_comm inner.length, ← Nat.add_assoc]
    unfold pairs
    split
    next => exact absurd rfl noOpen
    next => exact absurd rfl noClose
    next => exact skip

end Nesting

namespace Statement

/-- Parentheses are paired with parentheses, and none with two. -/
structure Matched (s : Statement) : Prop extends s.Nested where
  distinct : s.pairs.Pairwise fun a b => a.1 ≠ b.1 ∧ a.2 ≠ b.2

theorem ofLexemes_matched (lexemes : List Lexeme) : (ofLexemes lexemes).Matched :=
  ⟨ofLexemes_nested lexemes, Nesting.pairs_distinct .nil (by simp)⟩

namespace Matched

variable {s : Statement} (matched : s.Matched) {opening closing i j : Nat}

include matched

/-- Pairs that share a parenthesis are one. -/
theorem pair_eq {a b : Nat × Nat} (listed : a ∈ s.pairs) (listedToo : b ∈ s.pairs)
    (shared : a.1 = b.1 ∨ a.2 = b.2) : a = b := by
  by_contra different
  have symmetric : Std.Symm fun a b : Nat × Nat => a.1 ≠ b.1 ∧ a.2 ≠ b.2 :=
    ⟨fun _ _ apart => ⟨apart.1.symm, apart.2.symm⟩⟩
  have apart := matched.distinct.forall listed listedToo different
  exact shared.elim apart.1 apart.2

/-- No parenthesis both begins a pair and ends one. -/
theorem not_begins_of_ends (ends : (i, opening) ∈ s.pairs) : (opening, j) ∉ s.pairs := by
  intro begins
  have opens := matched.opens begins
  have closes := matched.closes ends
  unfold is at opens closes
  rw [eq_of_beq opens] at closes
  cases eq_of_beq closes

theorem partner_of_opening (paired : (opening, closing) ∈ s.pairs) :
    s.partner opening = some closing := by
  unfold partner
  split
  next first last found =>
    have begins : first = opening := by simpa using List.find?_some found
    have same := matched.pair_eq (List.mem_of_find?_eq_some found) paired (Or.inl begins)
    cases same
    rfl
  next missing =>
    have absent := List.find?_eq_none.mp missing _ paired
    simp at absent

theorem partner_of_closing (paired : (opening, closing) ∈ s.pairs) :
    s.partner closing = some opening := by
  unfold partner
  split
  next first last found =>
    obtain rfl : first = closing := by simpa using List.find?_some found
    exact absurd (List.mem_of_find?_eq_some found) (matched.not_begins_of_ends paired)
  next =>
    cases found : s.pairs.find? (·.2 == closing) with
    | none =>
      have absent := List.find?_eq_none.mp found _ paired
      simp at absent
    | some pair =>
      have ends : pair.2 = closing := by simpa using List.find?_some found
      rw [matched.pair_eq (List.mem_of_find?_eq_some found) paired (Or.inr ends)]
      rfl

/-- The partner of a parenthesis is the other one of its pair. -/
theorem partner_iff : s.partner i = some j ↔ (i, j) ∈ s.pairs ∨ (j, i) ∈ s.pairs := by
  constructor
  · exact mem_pairs_of_partner
  · rintro (begins | ends)
    · exact matched.partner_of_opening begins
    · exact matched.partner_of_closing ends

end Matched

/-- The first parenthesis after an opening one is its partner, if it closes. -/
theorem partner_of_flat {first inner rest : List Lexeme} {opening closing : Lexeme}
    (opens : opening.kind = .parenOpen) (closes : closing.kind = .parenClose)
    (flat : ∀ lexeme ∈ inner, lexeme.kind ≠ .parenOpen ∧ lexeme.kind ≠ .parenClose) :
    (ofLexemes (first ++ opening :: (inner ++ closing :: rest))).partner first.length =
      some (first.length + 1 + inner.length) := by
  refine (ofLexemes_matched _).partner_of_opening ?_
  obtain ⟨stillOpen, inside⟩ := Nesting.pairs_append 0 [] (first.map (·.kind))
    ((opening :: (inner ++ closing :: rest)).map (·.kind))
  have kinds : ∀ kind ∈ inner.map (·.kind), kind ≠ .parenOpen ∧ kind ≠ .parenClose := by
    intro kind member
    obtain ⟨lexeme, listed, rfl⟩ := List.mem_map.mp member
    exact flat lexeme listed
  have paired : (first.length, first.length + 1 + (inner.map (·.kind)).length) ∈
      Nesting.pairs (first.length + 1) (first.length :: stillOpen)
        (inner.map (·.kind) ++ .parenClose :: rest.map (·.kind)) :=
    Nesting.pair_of_flat kinds
  rw [← List.map_append] at inside
  refine inside.subset ?_
  simpa [Nesting.pairs, opens, closes] using paired

end Statement

end AnnotatedSql
