import AnnotatedSql.Finding
import AnnotatedSql.Parameter.Hint
import AnnotatedSql.Proofs.Checked.Nesting

/-!
# Tokens before and after others

A token before another one is looked at only where that one is not the first, and a range of tokens
is given a place only where it begins and ends at tokens that exist.
-/

namespace AnnotatedSql

namespace Checked

/-- The place of the tokens from `lo` to before `hi`, of which the first and the last are read. -/
def tokens (s : Statement) (lo hi : Nat) : Checked Place := do
  let _ ← get s.lexemes.toList lo
  let last ← sub (max hi (lo + 1)) 1
  let _ ← get s.lexemes.toList last
  pure (.tokens lo hi)

/-- The place of token `i`. -/
def token (s : Statement) (i : Nat) : Checked Place := do
  let _ ← get s.lexemes.toList i
  pure (.token i)

/-- Whether the parenthesis at `i` follows a function name. -/
def isCall (s : Statement) (i : Nat) : Checked Bool :=
  if 0 < i then do
    let name ← sub i 1
    pure (s.is name .ident && !s.isClauseKeyword name)
  else pure false

/-- Widens `lo` to `hi` by at most `fuel` pairs of parentheses. -/
def widen (s : Statement) : Nat → Nat → Nat → Checked (Nat × Nat)
  | 0, lo, hi => pure (lo, hi)
  | fuel + 1, lo, hi =>
    if 0 < lo then do
      let opening ← sub lo 1
      let call ← isCall s opening
      if s.is opening .parenOpen && s.partner opening == some (hi + 1) && !call then
        widen s fuel opening (hi + 1)
      else pure (lo, hi)
    else pure (lo, hi)

/-- The tokens `lo` to `hi` with all the parentheses that do nothing but wrap them. -/
def unwrapParens (s : Statement) (lo hi : Nat) : Checked (Nat × Nat) := widen s lo lo hi

/-- The type name at `i`, whose tokens are given a place. -/
def typeName? (s : Statement) (i : Nat) : Checked (Option TypeName) :=
  match s.typeName? i with
  | some type => do
    let _ ← tokens s type.lo type.hi
    pure (some type)
  | none => pure none

/-- The type name that a `CAST` around the tokens `lo` to `hi` ends with. -/
def castTarget? (s : Statement) (lo hi : Nat) : Checked (Option TypeName) :=
  if 2 ≤ lo then do
    let opening ← sub lo 1
    let word ← sub lo 2
    if s.is opening .parenOpen && s.isKeyword word "cast" && s.isKeyword (hi + 1) "as" then do
      let type ← typeName? s (hi + 2)
      pure (type.filter fun type => s.partner opening == some type.hi)
    else pure none
  else pure none

/-- The type that the placeholder at `i` is cast to directly. -/
def castHint? (s : Statement) (i : Nat) : Checked (Option TypeName) := do
  let (lo, hi) ← unwrapParens s i i
  if s.is (hi + 1) .doubleColon then typeName? s (hi + 2) else castTarget? s lo hi

end Checked

namespace Statement

variable {s : Statement}

theorem skipGroup_positive {next : Nat} (positive : 0 < next) : 0 < s.skipGroup next := by
  unfold skipGroup
  split
  · split
    · exact Nat.succ_pos _
    · exact positive
  · exact positive

theorem arraySuffixes_le (fuel next : Nat) : next ≤ (s.arraySuffixes fuel next).2 := by
  induction fuel generalizing next with
  | zero => exact Nat.le_refl _
  | succ fuel ih =>
    unfold arraySuffixes
    split
    · have after : next < if s.is (next + 1) .number then next + 2 else next + 1 := by
        split <;> omega
      generalize (if s.is (next + 1) .number then next + 2 else next + 1) = closing at *
      dsimp only
      split
      · exact Nat.le_trans (by omega) (ih (closing + 1))
      · exact Nat.le_refl _
    · exact Nat.le_refl _

/-- A type name has a last token. -/
theorem typeName_positive {i : Nat} {type : TypeName} (found : s.typeName? i = some type) :
    0 < type.hi := by
  obtain ⟨first, read, found⟩ := Option.bind_eq_some_iff.mp found
  cases found
  have begins : i + 1 ≤ s.size := lt_size_of_typeWord read
  have dots := followTypeDots_bounds s.size first begins
  have words := completeType_bounds (s.followTypeDots s.size first (i + 1)).1 dots.2
  have positive := Nat.lt_of_lt_of_le (Nat.succ_pos i) (Nat.le_trans dots.1 words.1)
  exact Nat.lt_of_lt_of_le (skipGroup_positive positive) (arraySuffixes_le _ _)

end Statement

namespace Checked

/-! ## No trap is met -/

variable {s : Statement} {i lo hi : Nat}

theorem get_lexeme (inside : i < s.size) : ∃ lexeme, get s.lexemes.toList i = pure lexeme := by
  have bounded : i < s.lexemes.toList.length := by simpa [Statement.size] using inside
  exact ⟨_, get_eq (List.getElem?_eq_getElem bounded)⟩

theorem tokens_eq (begins : lo < s.size) (ends : hi ≤ s.size) :
    tokens s lo hi = pure (.tokens lo hi) := by
  obtain ⟨first, readFirst⟩ := get_lexeme begins
  obtain ⟨last, readLast⟩ := get_lexeme (s := s) (i := max hi (lo + 1) - 1) (by omega)
  unfold tokens
  rw [readFirst, pure_bind, sub_eq (by omega), pure_bind, readLast, pure_bind]

theorem token_eq (inside : i < s.size) : token s i = pure (.token i) := by
  obtain ⟨lexeme, read⟩ := get_lexeme inside
  unfold token
  rw [read, pure_bind]

theorem isCall_eq : isCall s i = pure (s.isCall i) := by
  unfold isCall Statement.isCall
  by_cases positive : 0 < i
  · rw [if_pos positive, sub_eq positive, pure_bind, decide_eq_true positive, Bool.true_and]
  · rw [if_neg positive, decide_eq_false positive, Bool.false_and, Bool.false_and]

theorem widen_eq (fuel : Nat) : widen s fuel lo hi = pure (s.widen fuel lo hi) := by
  induction fuel generalizing lo hi with
  | zero => rfl
  | succ fuel ih =>
    unfold widen Statement.widen
    by_cases positive : 0 < lo
    · rw [if_pos positive, sub_eq positive, pure_bind, isCall_eq, pure_bind, ih,
        decide_eq_true positive, Bool.true_and]
      split <;> rfl
    · rw [if_neg positive, decide_eq_false positive]
      rfl

theorem unwrapParens_eq : unwrapParens s lo hi = pure (s.unwrapParens lo hi) := widen_eq lo

variable (paired : s.Paired)

include paired

theorem typeName_eq : typeName? s i = pure (s.typeName? i) := by
  unfold typeName?
  cases found : s.typeName? i with
  | none => rfl
  | some type =>
    obtain ⟨same, begins, ends⟩ := paired.typeName_bounds found
    dsimp only
    rw [tokens_eq (same ▸ begins) ends, pure_bind]

theorem castTarget_eq : castTarget? s lo hi = pure (s.castTarget? lo hi) := by
  unfold castTarget? Statement.castTarget?
  by_cases far : 2 ≤ lo
  · rw [if_pos far, sub_eq (by omega), pure_bind, sub_eq far, pure_bind, typeName_eq paired,
      pure_bind, decide_eq_true far, Bool.true_and]
    split <;> rfl
  · rw [if_neg far, decide_eq_false far]
    rfl

theorem castHint_eq : castHint? s i = pure (s.castHint? i) := by
  unfold castHint? Statement.castHint?
  rw [unwrapParens_eq, pure_bind]
  obtain ⟨lo, hi⟩ := s.unwrapParens i i
  dsimp only
  rw [typeName_eq paired, castTarget_eq paired]
  split <;> rfl

end Checked

end AnnotatedSql
