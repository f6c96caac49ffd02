import AnnotatedSql.Proofs.Text.Trimming
import AnnotatedSql.Proofs.Token.Comment

/-!
# Blanks around a text

A text without the blanks around it has the same significant lexemes. Blank tokens go as a whole; a
line comment at the end may lose the blanks it ends with and is still one.
-/

namespace AnnotatedSql

/-! ## Blank tokens -/

namespace Lexer

/-- The characters with the property White_Space. -/
def blanks : List Char :=
  (List.range' 9 5 ++ [0x20, 0x85, 0xA0, 0x1680] ++ List.range' 0x2000 11 ++
    [0x2028, 0x2029, 0x202F, 0x205F, 0x3000]).map Char.ofNat

theorem mem_blanks {c : Char} (blank : isBlank c = true) : c ∈ blanks := by
  refine List.mem_map.mpr ⟨c.toNat, ?_, Char.ofNat_toNat c⟩
  simp only [isBlank, Bool.or_eq_true, Bool.and_eq_true, decide_eq_true_eq, beq_iff_eq] at blank
  simp only [List.mem_append, List.mem_range'_1, List.mem_cons, List.not_mem_nil, or_false]
  omega

/-- What begins with a blank is a blank token. -/
theorem reading_of_blank {c : Char} (blank : isBlank c = true) {rule : Rule}
    (member : rule ∈ startingWith c) :
    rule.reading = .token .newline ∨ rule.reading = .token .whitespace := by
  have all : (blanks.all fun c => (startingWith c).all fun rule =>
      rule.reading == .token .newline || rule.reading == .token .whitespace) = true := by
    decide +kernel
  have starts := List.all_eq_true.mp all c (mem_blanks blank)
  simpa using List.all_eq_true.mp starts rule member

/-- Only blank tokens and line comments end with a blank. -/
theorem avoidsLast_blank {c : Char} (blank : isBlank c = true) {rule : Rule}
    (member : rule ∈ Rule.all) (noNewline : rule.reading ≠ .token .newline)
    (noSpace : rule.reading ≠ .token .whitespace) (noComment : rule.reading ≠ .token .lineComment) :
    rule.pattern.avoidsLast c = true := by
  have all : (blanks.all fun c => Rule.all.all fun rule =>
      rule.reading == .token .newline || rule.reading == .token .whitespace ||
        rule.reading == .token .lineComment || rule.pattern.avoidsLast c) = true := by
    decide +kernel
  have ends := List.all_eq_true.mp all c (mem_blanks blank)
  simpa [noNewline, noSpace, noComment] using List.all_eq_true.mp ends rule member

variable {kind : TokenKind} {token rest others text : List Char} {c : Char}

theorem text_of_newline (read : firstReading Rule.all text = some (.token .newline)) :
    text = ['\n'] ∨ text = ['\r', '\n'] := by
  have only : Rule.all.filter (·.reading = .token .newline) =
    [Rule.fixed .newline "\n", Rule.fixed .newline "\r\n"] := rfl
  obtain ⟨rule, listed, matched⟩ := exists_among only read
  simp only [List.mem_cons, List.not_mem_nil, or_false] at listed
  rcases listed with rfl | rfl
  · exact Or.inl (Pattern.matches_text.mp matched)
  · exact Or.inr (Pattern.matches_text.mp matched)

theorem all_blankChar_of_reading (read : firstReading Rule.all text = some (.token .whitespace)) :
    text.all Rule.blankChar = true := by
  have only : Rule.all.filter (·.reading = .token .whitespace) =
    [⟨.token .whitespace, .oneOrMore (.char Rule.blankChar)⟩] := rfl
  exact (Rule.matches_oneOrMore_char.mp (matches_of_only only read)).2

theorem isBlank_of_blankChar (blank : Rule.blankChar c = true) : isBlank c = true := by
  simp only [Rule.blankChar, Bool.or_eq_true, beq_iff_eq] at blank
  rcases blank with ((rfl | rfl) | rfl) | rfl <;> decide

/-- A blank token has nothing but blanks. -/
theorem all_blank (begins : Begins kind token rest) (blank : kind = .newline ∨ kind = .whitespace) :
    token.all isBlank = true := by
  cases begins with
  | quoted isString _ _ _ _ _ _ =>
    rcases blank with same | same
    · cases isString.symm.trans same
    · cases isString.symm.trans same
  | rule _ longest =>
    rcases blank with rfl | rfl
    · rcases text_of_newline longest.matched with rfl | rfl <;> decide
    · have chars := all_blankChar_of_reading longest.matched
      rw [List.all_eq_true] at chars ⊢
      exact fun c member => isBlank_of_blankChar (chars c member)

/-- A token that begins with a blank is a blank token. -/
theorem Begins.blank {c : Char} (begins : Begins kind (c :: token) rest)
    (blank : isBlank c = true) : kind = .newline ∨ kind = .whitespace := by
  cases begins with
  | rule _ longest =>
    obtain ⟨rule, member, read, _⟩ := exists_startingWith longest.matched
    have readings := reading_of_blank blank member
    rw [read] at readings
    simpa using readings
  | quoted _ tag inner nonempty whole longest _ =>
    obtain ⟨d, tag, rfl⟩ := List.exists_cons_of_ne_nil nonempty
    obtain ⟨rfl, _⟩ := List.cons.inj whole
    obtain ⟨rule, member, read, _⟩ := exists_startingWith longest.matched
    have readings := reading_of_blank blank member
    rw [read] at readings
    rcases readings with impossible | impossible <;> cases impossible

/-- A token that is no blank and no line comment does not end with a blank. -/
theorem Begins.trimEnd_eq (begins : Begins kind token rest) (noNewline : kind ≠ .newline)
    (noSpace : kind ≠ .whitespace) (noComment : kind ≠ .lineComment) : trimEnd token = token := by
  have last : ∃ c, token.getLast? = some c ∧ isBlank c = false := by
    cases begins with
    | rule nonempty longest =>
      obtain ⟨rule, member, read, matched⟩ := exists_rule longest.matched
      refine ⟨token.getLast nonempty, List.getLast?_eq_some_getLast nonempty, ?_⟩
      cases blank : isBlank (token.getLast nonempty) with
      | false => rfl
      | true =>
        have avoided := avoidsLast_blank blank member (by simpa [read]) (by simpa [read])
          (by simpa [read])
        exact absurd (List.getLast?_eq_some_getLast nonempty)
          (Pattern.getLast_of_avoids matched avoided)
    | quoted _ tag inner _ whole longest _ =>
      obtain ⟨word, rfl, _⟩ := Rule.matches_dollarTag.mp (tag_of_reading longest.matched)
      refine ⟨'$', ?_, by decide⟩
      rw [whole, ← List.append_assoc]
      exact List.getLast?_concat
  obtain ⟨c, last, visible⟩ := last
  exact trimEnd_of_last last visible

/-- A token stays one where less comes after it. -/
theorem Begins.shorten (begins : Begins kind token rest) (shorter : others <+: rest) :
    Begins kind token others :=
  begins.before fun _ longest => ⟨longest.matched, fun more further starts =>
    longest.final more further (starts.trans shorter)⟩

/-- A line comment without the blanks at its end. -/
theorem Begins.trimComment (begins : Begins .lineComment token rest) :
    Begins .lineComment (trimEnd token) [] := by
  cases begins with
  | quoted isString _ _ _ _ _ _ => cases isString
  | rule _ longest =>
    have only : Rule.all.filter (·.reading = .token .lineComment) =
      [⟨.token .lineComment, Rule.lineComment⟩] := rfl
    have matched := matches_of_only only longest.matched
    obtain ⟨comment, rfl, sameLine⟩ := Rule.matches_lineComment.mp matched
    have left : trimEnd ('-' :: '-' :: comment) = '-' :: '-' :: trimEnd comment := by
      have split : '-' :: '-' :: comment = ['-', '-'] ++ comment := rfl
      rw [split, trimEnd_append]
      by_cases blank : trimEnd comment = []
      · rw [if_pos blank, blank]
        decide
      · rw [if_neg blank]
        rfl
    have within : '\n' ∉ trimEnd comment := fun member =>
      sameLine ((trimEnd_starts comment).subset member)
    rw [left]
    exact .ofLine within (Or.inl rfl)

end Lexer

/-! ## Texts -/

/-- The lexemes that carry meaning. -/
def meaningful (found : List Lexeme) : List Lexeme :=
  found.filter fun lexeme => !lexeme.kind.isTrivia

namespace Lexes

variable {text : List Char} {found : List Lexeme}

theorem meaningful_of_blank (lexes : Lexes text found) (blank : AnnotatedSql.trimEnd text = []) :
    meaningful found = [] := by
  rw [trimEnd_eq, List.rdropWhile_eq_nil_iff] at blank
  induction lexes with
  | nil => rfl
  | @cons kind token rest others begins next ih =>
    have none := ih fun c member => blank c (List.mem_append_right _ member)
    obtain ⟨c, tail, rfl⟩ := List.exists_cons_of_ne_nil begins.ne_nil
    have kinds := begins.blank (blank c (by simp))
    unfold meaningful at *
    rw [List.filter_cons, none]
    rcases kinds with rfl | rfl <;> rfl

theorem dropBlanks (lexes : Lexes text found) :
    ∃ kept, Lexes (text.dropWhile isBlank) kept ∧ meaningful kept = meaningful found := by
  induction lexes with
  | nil => exact ⟨[], .nil, rfl⟩
  | @cons kind token rest others begins next ih =>
    obtain ⟨c, tail, rfl⟩ := List.exists_cons_of_ne_nil begins.ne_nil
    cases blank : isBlank c with
    | false =>
      refine ⟨_, ?_, rfl⟩
      rw [List.cons_append, List.dropWhile_cons, blank]
      exact .cons begins next
    | true =>
      have kinds := begins.blank blank
      have blanks := Lexer.all_blank begins kinds
      obtain ⟨kept, lexed, same⟩ := ih
      refine ⟨kept, ?_, ?_⟩
      · rwa [List.dropWhile_append_of_pos (fun d member => List.all_eq_true.mp blanks d member)]
      · rw [same]
        rcases kinds with rfl | rfl <;> rfl

theorem trimEnd (lexes : Lexes text found) :
    ∃ kept, Lexes (trimEnd text) kept ∧ meaningful kept = meaningful found := by
  induction lexes with
  | nil => exact ⟨[], .nil, rfl⟩
  | @cons kind token rest others begins next ih =>
    rw [trimEnd_append]
    by_cases blank : AnnotatedSql.trimEnd rest = []
    · rw [if_pos blank]
      have none := next.meaningful_of_blank blank
      have alone : meaningful (⟨kind, String.ofList token⟩ :: others) =
          meaningful [⟨kind, String.ofList token⟩] := by
        unfold meaningful at *
        rw [List.filter_cons, List.filter_cons, none, List.filter_nil]
      rw [alone]
      by_cases gone : kind = .newline ∨ kind = .whitespace
      · have blanks := Lexer.all_blank begins gone
        have nothing : AnnotatedSql.trimEnd token = [] := by
          rw [trimEnd_eq, List.rdropWhile_eq_nil_iff]
          exact List.all_eq_true.mp blanks
        rw [nothing]
        refine ⟨[], .nil, ?_⟩
        rcases gone with rfl | rfl <;> rfl
      · rw [not_or] at gone
        by_cases comment : kind = .lineComment
        · subst comment
          have lexed := Lexes.cons begins.trimComment .nil
          rw [List.append_nil] at lexed
          exact ⟨_, lexed, rfl⟩
        · have lexed := Lexes.cons (begins.shorten (List.nil_prefix)) .nil
          rw [List.append_nil] at lexed
          rw [begins.trimEnd_eq gone.1 gone.2 comment]
          exact ⟨_, lexed, rfl⟩
    · rw [if_neg blank]
      obtain ⟨kept, lexed, same⟩ := ih
      refine ⟨_, .cons (begins.shorten (trimEnd_starts rest)) lexed, ?_⟩
      unfold meaningful at *
      rw [List.filter_cons, List.filter_cons, same]

/-- A text without the blanks around it has the same significant lexemes. -/
theorem trim (lexes : Lexes text found) :
    ∃ kept, Lexes (AnnotatedSql.trim text) kept ∧ meaningful kept = meaningful found := by
  obtain ⟨left, lexed, same⟩ := lexes.dropBlanks
  obtain ⟨kept, trimmed, also⟩ := lexed.trimEnd
  exact ⟨kept, trimmed, also.trans same⟩

end Lexes

end AnnotatedSql
