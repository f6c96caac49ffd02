import AnnotatedSql.Proofs.Token.Respelling

/-!
# Comments

A comment is closed by the first `*/`, or by the end of its line. It is a token wherever a token
begins with it.
-/

namespace AnnotatedSql

/-- A comment before the text `rest`: from `/*` to the first `*/`, or from `--` to the end of the
line. -/
inductive Comment (rest : List Char) : List Char → Prop
  | block {inside : List Char} (first : ¬['*', '/'] <:+: inside ++ ['*']) :
      Comment rest ('/' :: '*' :: (inside ++ ['*', '/']))
  | line {inside : List Char} (oneLine : '\n' ∉ inside)
      (ends : rest = [] ∨ ∃ tail, rest = '\n' :: tail) : Comment rest ('-' :: '-' :: inside)

namespace Comment

variable {comment rest : List Char}

/-- A comment begins with a slash or a dash. -/
theorem starts (commented : Comment rest comment) :
    ∃ c tail, comment = c :: tail ∧ (c = '/' ∨ c = '-') := by
  cases commented with
  | block _ => exact ⟨_, _, rfl, Or.inl rfl⟩
  | line _ _ => exact ⟨_, _, rfl, Or.inr rfl⟩

end Comment

namespace Rule

variable {star : Bool} {text inside : List Char}

/-- A comment ends where `*/` occurs. -/
theorem endsComment_iff : endsComment star text ↔
    (star = true ∧ ∃ tail, text = '/' :: tail) ∨ ['*', '/'] <:+: text := by
  induction text generalizing star with
  | nil =>
    constructor
    · rintro ⟨inside, starts, closed⟩
      rw [List.prefix_nil.mp starts] at closed
      cases closed
    · rintro (⟨_, _, impossible⟩ | occurs)
      · cases impossible
      · cases List.infix_nil.mp occurs
  | cons c text ih =>
    rw [endsComment_cons, ih, List.infix_cons_iff, List.cons_prefix_cons, beq_iff_eq]
    have slash : ['/'] <+: text ↔ ∃ tail, text = '/' :: tail :=
      ⟨fun ⟨tail, whole⟩ => ⟨tail, whole.symm⟩, fun ⟨tail, whole⟩ => ⟨tail, whole.symm⟩⟩
    rw [slash, eq_comm (a := '*')]
    simp only [List.cons.injEq, exists_and_left, exists_eq', and_true]

/-- The first `*/` closes a comment. -/
theorem closesComment_of_first
    (first : ¬['*', '/'] <:+: (if star then '*' :: inside else inside) ++ ['*']) :
    closesComment star (inside ++ ['*', '/']) = true := by
  induction inside generalizing star with
  | nil => cases star <;> rfl
  | cons c inside ih =>
    rw [List.cons_append, closesComment]
    have further : ¬['*', '/'] <:+: c :: inside ++ ['*'] := fun occurs => first <| by
      cases star
      · exact occurs
      · exact occurs.trans (List.suffix_cons _ _).isInfix
    by_cases ends : (star && c == '/') = true
    · simp only [Bool.and_eq_true, beq_iff_eq] at ends
      obtain ⟨rfl, rfl⟩ := ends
      exact absurd ⟨[], inside ++ ['*'], rfl⟩ first
    · rw [if_neg ends]
      refine ih fun occurs => further ?_
      by_cases starred : c = '*'
      · subst starred
        exact occurs
      · rw [if_neg (by simpa using starred)] at occurs
        exact occurs.trans (List.suffix_cons _ _).isInfix

end Rule

namespace Lexer

open Pattern Rule

variable {kind : TokenKind} {token comment rest : List Char} {c : Char}

theorem startingWith_dash :
    startingWith '-' = [fixed .minus "-", ⟨.token .lineComment, lineComment⟩] := rfl

/-- Where two rules begin so and the first refuses, the texts of the second are tokens. -/
theorem Begins.ofSecond {other rule : Rule} (both : startingWith c = [other, rule])
    (reads : rule.reading = .token kind)
    (refuses : ∀ more, ¬other.pattern.Matches (c :: token ++ more))
    (matched : rule.pattern.Matches (c :: token))
    (stops : ∀ more, more <+: rest → rule.pattern.Matches (c :: token ++ more) → more = []) :
    Begins kind (c :: token) rest := by
  refine .rule (by simp) ⟨?_, fun more further starts => ?_⟩
  · have refused : other.pattern.accepts (c :: token) = false := by
      rw [Bool.eq_false_iff, ne_eq, accepts_iff]
      simpa using refuses []
    rw [firstReading_startingWith, both, firstReading_cons, firstReading_cons, refused,
      accepts_iff.mpr matched, ← reads]
    rfl
  · refine firstReading_startingWith_eq_none fun some member longer => ?_
    rw [both, List.mem_cons, List.mem_singleton] at member
    rcases member with rfl | rfl
    · exact refuses more longer
    · exact further (stops more starts longer)

theorem Begins.ofBlock {inside : List Char} (first : ¬['*', '/'] <:+: inside ++ ['*']) :
    Begins .blockComment ('/' :: '*' :: (inside ++ ['*', '/'])) rest := by
  have closed : closesComment false (inside ++ ['*', '/']) = true := closesComment_of_first first
  refine .ofSecond startingWith_slash rfl ?_ ?_ ?_
  · intro more operators
    exact absurd (List.all_eq_true.mp (matches_oneOrMore_char.mp operators).2 '*' (by simp))
      (by decide)
  · exact matches_blockComment.mpr ⟨_, rfl, closed⟩
  · intro more _ longer
    obtain ⟨_, same, closes⟩ := matches_blockComment.mp longer
    cases same
    exact closesComment_append closed closes

theorem Begins.ofLine {inside : List Char} (oneLine : '\n' ∉ inside)
    (ends : rest = [] ∨ ∃ tail, rest = '\n' :: tail) :
    Begins .lineComment ('-' :: '-' :: inside) rest := by
  refine .ofSecond startingWith_dash rfl ?_ ?_ ?_
  · intro more minus
    cases matches_text.mp minus
  · exact matches_lineComment.mpr ⟨inside, rfl, oneLine⟩
  · intro more starts longer
    obtain ⟨_, same, within⟩ := matches_lineComment.mp longer
    cases same
    rcases ends with rfl | ⟨tail, rfl⟩
    · exact List.prefix_nil.mp starts
    · cases more with
      | nil => rfl
      | cons d more =>
        obtain ⟨rfl, _⟩ := List.cons_prefix_cons.mp starts
        exact absurd (by simp) within

/-- A comment is a token. -/
theorem Begins.ofComment (commented : Comment rest comment) :
    ∃ kind : TokenKind, kind.isTrivia = true ∧ Begins kind comment rest := by
  cases commented with
  | block first => exact ⟨.blockComment, rfl, .ofBlock first⟩
  | line oneLine ends => exact ⟨.lineComment, rfl, .ofLine oneLine ends⟩

end Lexer

end AnnotatedSql
