import AnnotatedSql.Proofs.Statement.Reference
import AnnotatedSql.Parameter.Typing

/-!
# Compared columns

A placeholder that is compared with a column has the type of the column. The column is read next to
the operator. Whether it is the whole operand depends on the token beyond it, of which only a few kinds
are looked at, so that the last column of a longer expression may be taken for the operand.
-/

namespace AnnotatedSql

namespace Statement

variable {s : Statement} {i op first last : Nat} {name : ColumnName}

/-- Whether an operand ends at token `i`: at a word of a clause, a comma, a semicolon, a parenthesis, a
comparison, or the end of the statement. -/
def endsOperand (s : Statement) (i : Nat) : Bool :=
  decide (s.size ≤ i) || s.isClauseKeyword i || s.isComparison i || s.is i .comma ||
    s.is i .semicolon || s.is i .parenOpen || s.is i .parenClose

/-- Token `i` stands before the operator at `op`, or before a `NOT` there. -/
def Faces (s : Statement) (i op : Nat) : Prop :=
  i + 1 = op ∨ i + 2 = op ∧ s.isKeyword (i + 1) "not" = true

/-- A `NOT` before the operator at `op` belongs to `LIKE` or `ILIKE`. -/
def NegatesLike (s : Statement) (op : Nat) : Prop :=
  s.isKeyword (op - 1) "not" = true → s.isOneOf op ["like", "ilike"] = true

/-- The operand before the operator at `op`, or before the `NOT` of a `LIKE` there, is exactly the tokens
from `first` to `last`. -/
structure OperandBefore (s : Statement) (op first last : Nat) : Prop where
  faces : s.Faces last op
  negation : s.NegatesLike op
  inner : ∀ i, first ≤ i → i ≤ last → s.endsOperand i = false
  begins : first = 0 ∨ s.endsOperand (first - 1) = true

/-- The operand behind the operator at `op` is exactly the tokens from `first` to `last`. -/
structure OperandBehind (s : Statement) (op first last : Nat) : Prop where
  faces : op + 1 = first
  inner : ∀ i, first ≤ i → i ≤ last → s.endsOperand i = false
  ends : s.endsOperand (last + 1) = true

/-! ## References -/

theorem endsOperand_of_name {column : Name} (named : s.name? i = some column) :
    s.endsOperand i = s.isClauseKeyword i := by
  have inside := (closesNothing_of_name named).1
  have plain : ∀ kind, kind ≠ .ident → kind ≠ .quotedIdent → s.is i kind = false := by
    intro kind noWord noQuote
    rcases kind_of_word (isWord_of_name named) with found | found
    · exact is_eq_false (beq_iff_eq.mpr found) noWord.symm
    · exact is_eq_false (beq_iff_eq.mpr found) noQuote.symm
  have operator : s.isComparison i = s.isOneOf i ["like", "ilike"] := by
    unfold isComparison
    rcases kind_of_word (isWord_of_name named) with found | found <;>
      · rw [found]
        rfl
  have listed : s.isOneOf i ["like", "ilike"] = true → s.isClauseKeyword i = true := by
    intro found
    obtain ⟨keyword, member, word⟩ := List.any_eq_true.mp found
    have known : ∀ keyword ∈ ["like", "ilike"], keyword ∈ clauseKeywords := by decide
    exact List.any_eq_true.mpr ⟨keyword, known keyword member, word⟩
  unfold endsOperand
  rw [operator, plain .comma (by simp) (by simp), plain .semicolon (by simp) (by simp),
    plain .parenOpen (by simp) (by simp), plain .parenClose (by simp) (by simp)]
  cases like : s.isOneOf i ["like", "ilike"] with
  | false => simp [Nat.not_le.mpr inside]
  | true => simp [listed like]

/-- A dot joins two names and ends nothing. -/
theorem endsOperand_of_dot (dot : s.is i .dot = true) :
    s.endsOperand i = false ∧ s.isClauseKeyword i = false := by
  have noWord : ∀ keyword, s.isKeyword i keyword = false := fun keyword => by
    rw [isKeyword, is_eq_false dot (by simp), Bool.false_and]
  have inside := lt_size_of_is dot
  have operator : s.isComparison i = false := by
    simp [isComparison, isOneOf, noWord, eq_of_beq dot, TokenKind.isComparison]
  have clause : s.isClauseKeyword i = false := by simp [isClauseKeyword, isOneOf, noWord]
  have other : ∀ kind, kind ≠ .dot → s.is i kind = false := fun kind different =>
    is_eq_false dot different.symm
  refine ⟨?_, clause⟩
  simp [endsOperand, clause, operator, other, Nat.not_le.mpr inside]

namespace IsReference

/-- No token of a reference ends an operand but a word of a clause. -/
theorem endsOperand (reference : s.IsReference first last name) (after : first ≤ i)
    (before : i ≤ last) : s.endsOperand i = s.isClauseKeyword i := by
  cases reference with
  | bare named =>
    obtain rfl : i = first := by omega
    exact endsOperand_of_name named
  | qualified owner dot named =>
    obtain rfl | rfl | rfl : i = first ∨ i = first + 1 ∨ i = first + 2 := by omega
    · exact endsOperand_of_name owner
    · exact (endsOperand_of_dot dot).1.trans (endsOperand_of_dot dot).2.symm
    · exact endsOperand_of_name named

end IsReference

end Statement

namespace Typing

variable {s : Statement} {scope : Scope} {lo hi i : Nat} {type : DataType}

/-- The column before an operator and a placeholder. It is the whole operand exactly if an operand ends
before it and no qualifier is a word of a clause. -/
theorem comparedAfter_reference (asks : comparedAfter s scope lo = some (.ok type)) :
    ∃ op first last name found, s.isComparison op = true ∧ s.Faces last op ∧ op + 1 = lo ∧
      s.IsReference first last name ∧ scope.lookup s last name = .ok found ∧
      found.column.type = type ∧
      (s.OperandBefore op first last ↔ (first = 0 ∨ s.endsOperand (first - 1) = true) ∧
        (∀ i, first ≤ i → i < last → s.isClauseKeyword i = false) ∧ s.NegatesLike op) := by
  unfold comparedAfter at asks
  split at asks
  next compares =>
    simp only [Bool.and_eq_true, decide_eq_true_eq] at compares
    obtain ⟨inside, operator⟩ := compares
    obtain ⟨⟨name, first⟩, read, typed⟩ := Option.map_eq_some_iff.mp asks
    obtain ⟨found, looked, same⟩ := columnType_eq_ok.mp typed
    obtain ⟨reference, noClause, _⟩ := Statement.reference_of_columnEndingAt read
    have faces : s.Faces (if (decide (0 < lo - 2) && s.isKeyword (lo - 2) "not") = true then lo - 3
        else lo - 2) (lo - 1) := by
      split
      next negation =>
        simp only [Bool.and_eq_true, decide_eq_true_eq] at negation
        exact Or.inr ⟨by omega, by rw [show lo - 3 + 1 = lo - 2 by omega]; exact negation.2⟩
      · exact Or.inl (by omega)
    refine ⟨lo - 1, first, _, name, found, operator, faces, by omega, reference, looked, same,
      fun whole => ⟨whole.begins, fun i after before => ?_, whole.negation⟩,
      fun ⟨begins, free, negation⟩ => ⟨faces, negation, fun i after before => ?_, begins⟩⟩
    · rw [← reference.endsOperand after (Nat.le_of_lt before)]
      exact whole.inner i after (Nat.le_of_lt before)
    · rw [reference.endsOperand after before]
      rcases Nat.eq_or_lt_of_le before with rfl | inner
      · exact noClause
      · exact free i after inner
  · cases asks

/-- The column after a placeholder and an operator. It is the whole operand exactly if an operand ends
behind it and no column is a word of a clause. -/
theorem comparedBefore_reference (asks : comparedBefore s scope hi = some (.ok type)) :
    ∃ op first last name found, s.isComparison op = true ∧ s.Faces hi op ∧ op + 1 = first ∧
      s.IsReference first last name ∧ scope.lookup s first name = .ok found ∧
      found.column.type = type ∧
      (s.OperandBehind op first last ↔ s.endsOperand (last + 1) = true ∧
        ∀ i, first < i → i ≤ last → s.isClauseKeyword i = false) := by
  have faces : s.Faces hi (if s.isKeyword (hi + 1) "not" then hi + 2 else hi + 1) := by
    split
    next negation => exact Or.inr ⟨rfl, negation⟩
    · exact Or.inl rfl
  unfold comparedBefore at asks
  generalize (if s.isKeyword (hi + 1) "not" then hi + 2 else hi + 1) = op at faces asks
  dsimp only at asks
  split at asks
  next operator =>
    obtain ⟨⟨name, next⟩, read, typed⟩ := Option.map_eq_some_iff.mp asks
    obtain ⟨found, looked, same⟩ := columnType_eq_ok.mp typed
    obtain ⟨last, rfl, reference, noClause⟩ :=
      Statement.reference_of_columnPath (Option.filter_eq_some_iff.mp read).1
    refine ⟨op, op + 1, last, name, found, operator, faces, rfl, reference, looked, same,
      fun whole => ⟨whole.ends, fun i after before => ?_⟩,
      fun ⟨ends, free⟩ => ⟨rfl, fun i after before => ?_, ends⟩⟩
    · rw [← reference.endsOperand (Nat.le_of_lt after) before]
      exact whole.inner i (Nat.le_of_lt after) before
    · rw [reference.endsOperand after before]
      rcases Nat.eq_or_lt_of_le after with rfl | inner
      · exact noClause
      · exact free i inner before
  · cases asks

/-- A comparison that gives a type gives it for the column before the operator or for that behind it. -/
theorem compared_of_contextType (asks : contextType s scope i = some (.ok type))
    (noCount : rowCount s (s.operand i).1 = none)
    (compared : (comparedAfter s scope (s.operand i).1 <|>
      comparedBefore s scope (s.operand i).2).isSome) :
    comparedAfter s scope (s.operand i).1 = some (.ok type) ∨
      comparedBefore s scope (s.operand i).2 = some (.ok type) := by
  unfold contextType at asks
  dsimp only at asks
  rw [noCount] at asks
  cases after : comparedAfter s scope (s.operand i).1 with
  | some expectation =>
    rw [after] at asks
    exact Or.inl asks
  | none =>
    rw [after] at asks compared
    cases before : comparedBefore s scope (s.operand i).2 with
    | some expectation =>
      rw [before] at asks
      exact Or.inr asks
    | none =>
      rw [before] at compared
      cases compared

end Typing

end AnnotatedSql
