import AnnotatedSql.Proofs.Checked.Basic
import AnnotatedSql.Proofs.Statement.Nested

/-!
# Parentheses matched in place

The partners and the enclosing parentheses of the tokens are written into two lists as long as the
tokens, while a stack holds what is still open. Only indices of tokens come onto the stack, so that
each entry that is written exists. As no parenthesis belongs to two pairs, no entry of a pair is
written over.
-/

namespace AnnotatedSql

namespace Checked

/-- What is known of the parentheses, for each token. -/
structure Links where
  partner : List (Option Nat)
  enclosing : List (Option Nat)

/-- Matches the parentheses from token `i` on. `stack` are those open before it, innermost first. -/
def nestFrom (i : Nat) (stack : List Nat) (links : Links) : List TokenKind → Checked Links
  | [] => pure links
  | kind :: kinds => do
    let enclosing ← put links.enclosing i stack.head?
    match kind, stack with
    | .parenOpen, _ => nestFrom (i + 1) (i :: stack) ⟨links.partner, enclosing⟩ kinds
    | .parenClose, opening :: outer => do
      let opened ← put links.partner opening (some i)
      let partner ← put opened i (some opening)
      let enclosing ← put enclosing i outer.head?
      nestFrom (i + 1) outer ⟨partner, enclosing⟩ kinds
    | _, _ => nestFrom (i + 1) stack ⟨links.partner, enclosing⟩ kinds

/-- Matches the parentheses of a run of tokens. -/
def nest (kinds : List TokenKind) : Checked Links :=
  nestFrom 0 [] ⟨List.replicate kinds.length none, List.replicate kinds.length none⟩ kinds

/-- The partners after a pair is written. -/
def write (partner : List (Option Nat)) (pair : Nat × Nat) : List (Option Nat) :=
  (partner.set pair.1 (some pair.2)).set pair.2 (some pair.1)

@[simp] theorem write_length (partner : List (Option Nat)) (pair : Nat × Nat) :
    (write partner pair).length = partner.length := by simp [write]

/-- The entry after those that are done. -/
theorem put_next {α : Type} (done rest : List α) (old new : α) :
    put (done ++ old :: rest) done.length new = pure (done ++ new :: rest) := by
  rw [put_eq (by simp), List.set_append_right _ _ (Nat.le_refl _)]
  simp

/-- Every entry that is written exists. -/
theorem nestFrom_eq {kinds : List TokenKind} {stack : List Nat}
    {partner done : List (Option Nat)} (before : ∀ opening ∈ stack, opening < done.length)
    (sized : partner.length = done.length + kinds.length) :
    nestFrom done.length stack ⟨partner, done ++ List.replicate kinds.length none⟩ kinds =
      pure ⟨(Nesting.pairs done.length stack kinds).foldl write partner,
        done ++ Nesting.around done.length stack kinds⟩ := by
  induction kinds generalizing stack partner done with
  | nil => rfl
  | cons kind kinds ih =>
    rw [List.length_cons] at sized
    -- What remains once the entries of this token are final.
    have later : ∀ {others : List Nat} (written : List (Option Nat)) {around : Option Nat},
        (∀ opening ∈ others, opening < done.length + 1) → written.length = partner.length →
        nestFrom (done.length + 1) others
            ⟨written, done ++ around :: List.replicate kinds.length none⟩ kinds =
          pure ⟨(Nesting.pairs (done.length + 1) others kinds).foldl write written,
            done ++ around :: Nesting.around (done.length + 1) others kinds⟩ := by
      intro others written around outside same
      have rest := @ih others written (done ++ [around]) (by simpa using outside)
        (by simp [same, sized]; omega)
      simpa using rest
    rw [List.length_cons, List.replicate_succ]
    unfold nestFrom Nesting.pairs Nesting.around
    dsimp only
    rw [put_next, pure_bind]
    have unchanged : ∀ opening ∈ stack, opening < done.length + 1 :=
      fun opening member => Nat.lt_succ_of_lt (before opening member)
    cases kind with
    | parenOpen =>
      refine later partner (fun opening member => ?_) rfl
      rcases List.mem_cons.mp member with rfl | member
      · exact Nat.lt_succ_self _
      · exact unchanged opening member
    | parenClose =>
      cases stack with
      | nil => exact later partner unchanged rfl
      | cons opening outer =>
        -- Both entries exist: that of the opening one, which is on the stack, and that of this token.
        have opened := before opening List.mem_cons_self
        dsimp only
        rw [put_eq (by omega), pure_bind, put_eq (by simp; omega), pure_bind, put_next, pure_bind]
        exact later (write partner (opening, done.length))
          (fun other member => unchanged other (List.mem_cons_of_mem _ member)) (write_length ..)
    | _ => exact later partner unchanged rfl

end Checked

/-! ## Pairs apart -/

namespace Nesting

/-- The pairs have no parenthesis in common. -/
def Apart (a b : Nat × Nat) : Prop := a.1 ≠ b.1 ∧ a.1 ≠ b.2 ∧ a.2 ≠ b.1 ∧ a.2 ≠ b.2

theorem pairs_apart {index : Nat} {opened : List Nat} {kinds : List TokenKind}
    (before : ∀ opening ∈ opened, opening < index) (sorted : opened.Pairwise (· > ·)) :
    (pairs index opened kinds).Pairwise Apart := by
  induction kinds generalizing index opened with
  | nil => exact .nil
  | cons kind kinds ih =>
    unfold pairs
    split
    · refine ih (fun opening member => ?_) (List.pairwise_cons.mpr ⟨before, sorted⟩)
      rcases List.mem_cons.mp member with rfl | member
      · exact Nat.lt_succ_self _
      · exact Nat.lt_succ_of_lt (before opening member)
    next opening outer =>
      obtain ⟨deeper, sorted⟩ := List.pairwise_cons.mp sorted
      have opens := before opening List.mem_cons_self
      have outside : ∀ other ∈ outer, other < index + 1 := fun other member =>
        Nat.lt_succ_of_lt (before other (List.mem_cons_of_mem _ member))
      refine List.pairwise_cons.mpr ⟨fun pair member => ?_, ih outside sorted⟩
      obtain ⟨first, after, _⟩ := kinds_of_pair member
      have notOpening : pair.1 ≠ opening ∧ pair.1 ≠ index := by
        rcases first with known | ⟨later, _⟩
        · have := deeper _ known
          omega
        · omega
      refine ⟨notOpening.1.symm, ?_, notOpening.2.symm, ?_⟩ <;> dsimp only <;> omega
    · exact ih (fun opening member => Nat.lt_succ_of_lt (before opening member)) sorted

/-- What a parenthesis is paired with. -/
def partnerIn (pairs : List (Nat × Nat)) (i : Nat) : Option Nat :=
  match pairs.find? (·.1 == i) with
  | some pair => some pair.2
  | none => (pairs.find? (·.2 == i)).map Prod.fst

theorem partnerIn_none {pairs : List (Nat × Nat)} {i : Nat}
    (absent : ∀ pair ∈ pairs, pair.1 ≠ i ∧ pair.2 ≠ i) : partnerIn pairs i = none := by
  have noOpening : pairs.find? (·.1 == i) = none :=
    List.find?_eq_none.mpr fun pair member => by simpa using (absent pair member).1
  have noClosing : pairs.find? (·.2 == i) = none :=
    List.find?_eq_none.mpr fun pair member => by simpa using (absent pair member).2
  rw [partnerIn, noOpening, noClosing]
  rfl

theorem around_length (index : Nat) (opened : List Nat) (kinds : List TokenKind) :
    (around index opened kinds).length = kinds.length := by
  induction kinds generalizing index opened with
  | nil => rfl
  | cons kind kinds ih =>
    unfold around
    split <;> rw [List.length_cons, List.length_cons, ih]

end Nesting

open Nesting

namespace Checked

/-- Writing pairs that are apart keeps all of them. -/
theorem foldl_write {pairs : List (Nat × Nat)} (apart : pairs.Pairwise Apart)
    {partner : List (Option Nat)}
    (inside : ∀ pair ∈ pairs, pair.1 < pair.2 ∧ pair.2 < partner.length) (i : Nat) :
    (pairs.foldl write partner)[i]? = partner[i]?.map fun old => (partnerIn pairs i).or old := by
  induction pairs generalizing partner with
  | nil => simp [partnerIn]
  | cons pair pairs ih =>
    obtain ⟨fresh, apart⟩ := List.pairwise_cons.mp apart
    obtain ⟨ordered, bounded⟩ := inside pair List.mem_cons_self
    have rest := @ih apart (write partner pair) fun other member => by
      rw [write_length]
      exact inside other (List.mem_cons_of_mem _ member)
    rw [List.foldl_cons, rest, write]
    -- Entry `i` is where the pair opens, where it closes, or neither. Later pairs write neither end.
    by_cases opens : pair.1 = i
    · subst opens
      have absent : partnerIn pairs pair.1 = none := partnerIn_none fun other member =>
        ⟨(fresh other member).1.symm, (fresh other member).2.1.symm⟩
      have here : pair.1 < partner.length := by omega
      have notLast : pair.2 ≠ pair.1 := by omega
      rw [absent]
      simp [partnerIn, notLast, here]
    by_cases closes : pair.2 = i
    · subst closes
      have later := fun other member =>
        And.intro (fresh other member).2.2.1.symm (fresh other member).2.2.2.symm
      have noOpening : pairs.find? (·.1 == pair.2) = none :=
        List.find?_eq_none.mpr fun other member => by simpa using (later other member).1
      rw [partnerIn_none later]
      simp [partnerIn, opens, bounded, noOpening]
    · simp [partnerIn, opens, closes]

end Checked

namespace Statement

variable (lexemes : List Lexeme)

theorem partner_eq (s : Statement) (i : Nat) : s.partner i = partnerIn s.pairs i := by
  unfold partner partnerIn
  cases s.pairs.find? (·.1 == i) <;> rfl

/-- The partners of all tokens are those that writing the pairs leaves. -/
theorem partners_eq : (List.range lexemes.length).map (ofLexemes lexemes).partner =
    (ofLexemes lexemes).pairs.foldl Checked.write (List.replicate lexemes.length none) := by
  have inside : ∀ pair ∈ (ofLexemes lexemes).pairs, pair.1 < pair.2 ∧
      pair.2 < (List.replicate lexemes.length (none : Option Nat)).length := fun pair member => by
    simpa [ofLexemes, size] using ofLexemes_paired lexemes pair.1 pair.2 member
  have apart : (ofLexemes lexemes).pairs.Pairwise Apart :=
    @pairs_apart _ [] _ (by simp) .nil
  refine List.ext_getElem? fun i => ?_
  rw [Checked.foldl_write apart inside, List.getElem?_map, List.getElem?_replicate]
  by_cases known : i < lexemes.length
  · rw [List.getElem?_range known, if_pos known, Option.map_some, Option.map_some, partner_eq,
      Option.or_none]
  · rw [List.getElem?_eq_none (by simpa using known), if_neg known]
    rfl

/-- The parentheses around all tokens in turn. -/
theorem enclosings_eq : (List.range lexemes.length).map (ofLexemes lexemes).enclosing =
    Nesting.around 0 [] (lexemes.map (·.kind)) := by
  have length := around_length 0 [] (lexemes.map (·.kind))
  rw [List.length_map] at length
  refine List.ext_getElem (by simp [length]) fun i known inside => ?_
  simp [enclosing, ofLexemes, List.getElem?_eq_getElem inside]

end Statement

namespace Checked

/-- Matching meets no trap and finds the partners and the enclosing parentheses of the statement. -/
theorem nest_eq (lexemes : List Lexeme) :
    nest (lexemes.map (·.kind)) = pure
      ⟨(List.range lexemes.length).map (Statement.ofLexemes lexemes).partner,
        (List.range lexemes.length).map (Statement.ofLexemes lexemes).enclosing⟩ := by
  have nested := @nestFrom_eq (lexemes.map (·.kind)) [] (List.replicate lexemes.length none) []
    (fun _ none => nomatch none) (by simp)
  rw [List.length_nil, List.nil_append, List.nil_append, List.length_map] at nested
  rw [nest, List.length_map, nested, Statement.partners_eq, Statement.enclosings_eq]
  rfl

end Checked

end AnnotatedSql
