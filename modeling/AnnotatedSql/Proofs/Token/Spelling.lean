import AnnotatedSql.Proofs.Token.Language
import AnnotatedSql.Proofs.Token.Lexing
import AnnotatedSql.Text.Word

/-!
# How tokens are spelled

Every lexeme but garbage is the token that some part of the text begins with, also in a text with
faults. So an identifier is spelled as a word, and a number as digits with or without a fraction.
-/

namespace AnnotatedSql

namespace Lexer

open Pattern Rule

variable {text : List Char} {lexeme : Lexeme}

/-- Whatever a text is cut into begins there, if it is no fault. -/
theorem begins_of_mem_cut {fuel : Nat} {piece : Piece} {kind : TokenKind}
    (member : piece ∈ cut fuel text) (isToken : piece.kind = some kind) :
    ∃ rest, Begins kind piece.text rest := by
  induction fuel generalizing text with
  | zero => cases member
  | succ fuel ih =>
    cases text with
    | nil => cases member
    | cons c text =>
      unfold cut at member
      generalize stepped : step (c :: text) = outcome at member
      obtain ⟨found, length⟩ := outcome
      rcases List.mem_cons.mp member with rfl | member
      · obtain rfl : found = some kind := isToken
        obtain ⟨token, rest, whole, rfl, begins⟩ := exists_begins stepped
        refine ⟨rest, ?_⟩
        rwa [whole, List.take_left]
      · exact ih member

theorem mem_of_mem_join {fault : List Char} {pieces : List Piece}
    (member : lexeme ∈ join fault pieces) :
    lexeme.kind = .garbage ∨ ⟨some lexeme.kind, lexeme.text.toList⟩ ∈ pieces := by
  have flushed : ∀ {fault}, lexeme ∈ flush fault → lexeme.kind = .garbage := by
    intro fault member
    unfold flush at member
    split at member
    · cases member
    · rw [List.mem_singleton.mp member]
  induction pieces generalizing fault with
  | nil => exact Or.inl (flushed member)
  | cons piece pieces ih =>
    rcases piece with ⟨_ | kind, spelling⟩
    · exact (ih member).imp_right (List.mem_cons_of_mem _)
    · rw [join, List.mem_append, List.mem_cons] at member
      rcases member with member | rfl | member
      · exact Or.inl (flushed member)
      · simp
      · exact (ih member).imp_right (List.mem_cons_of_mem _)

/-- A lexeme is garbage, or the token that some part of the text begins with. -/
theorem begins_of_mem_lexemes (member : lexeme ∈ lexemes text) (sound : lexeme.kind ≠ .garbage) :
    ∃ rest, Begins lexeme.kind lexeme.text.toList rest :=
  begins_of_mem_cut ((mem_of_mem_join member).resolve_left sound) rfl

/-- The pattern of a number. -/
def number : Pattern :=
  seq (oneOrMore (char Char.isDigit)) (zeroOrOne (seq (one '.') (star (char Char.isDigit))))

theorem matches_number {t : List Char} : Matches number t ↔
    ∃ digits fraction, t = digits ++ fraction ∧ digits ≠ [] ∧ digits.all Char.isDigit = true ∧
      (fraction = [] ∨ ∃ others, fraction = '.' :: others ∧ others.all Char.isDigit = true) := by
  unfold number zeroOrOne
  simp only [matches_seq (p := oneOrMore _), matches_oneOrMore_char, matches_alt, matches_empty,
    matches_one_seq, matches_star_char, and_assoc]
  grind

/-- What only one rule reads so is spelled by that rule. -/
theorem matches_of_mem_lexemes {rule : Rule} (member : lexeme ∈ lexemes text)
    (sound : lexeme.kind ≠ .garbage) (noString : lexeme.kind ≠ .stringLiteral)
    (only : Rule.all.filter (·.reading = .token lexeme.kind) = [rule]) :
    Matches rule.pattern lexeme.text.toList := by
  obtain ⟨rest, begins⟩ := begins_of_mem_lexemes member sound
  cases begins with
  | rule _ longest => exact matches_of_only only longest.matched
  | quoted isString _ _ _ _ _ _ => exact absurd isString noString

theorem matches_word_of_ident (member : lexeme ∈ lexemes text) (ident : lexeme.kind = .ident) :
    Matches word lexeme.text.toList := by
  have only : Rule.all.filter (·.reading = .token .ident) = [⟨.token .ident, word⟩] := rfl
  rw [← ident] at only
  exact matches_of_mem_lexemes member (by simp [ident]) (by simp [ident]) only

theorem matches_number_of_number (member : lexeme ∈ lexemes text)
    (isNumber : lexeme.kind = .number) : Matches number lexeme.text.toList := by
  have only : Rule.all.filter (·.reading = .token .number) = [⟨.token .number, number⟩] := rfl
  rw [← isNumber] at only
  exact matches_of_mem_lexemes member (by simp [isNumber]) (by simp [isNumber]) only

/-- A number stands for one of at most 32 bits unless it has a fraction or is too large. -/
theorem numeral_of_number {spelling : String} {n : Nat} (matched : Matches number spelling.toList) :
    numeral? spelling = some n ↔
      '.' ∉ spelling.toList ∧ digitsValue 0 spelling.toList < UInt32.size ∧
        n = digitsValue 0 spelling.toList := by
  obtain ⟨digits, fraction, whole, nonempty, decimal, ends⟩ := matches_number.mp matched
  have noSign : ∀ others, spelling.toList ≠ '+' :: others := by
    intro others signed
    obtain ⟨c, digits, rfl⟩ := List.exists_cons_of_ne_nil nonempty
    rw [signed] at whole
    obtain ⟨rfl, _⟩ := List.cons.inj whole
    exact absurd (List.all_eq_true.mp decimal '+' List.mem_cons_self) (by decide)
  have read : numeral? spelling = digitsBelow? UInt32.size spelling.toList := by
    unfold numeral? numeralBelow?
    split
    next others signed => exact absurd signed (noSign others)
    · rfl
  have noDot : ∀ {digits : List Char}, digits.all Char.isDigit = true → '.' ∉ digits :=
    fun decimal member => absurd (List.all_eq_true.mp decimal '.' member) (by decide)
  rw [read, whole]
  unfold digitsBelow?
  rcases ends with rfl | ⟨others, rfl, _⟩
  · rw [List.append_nil, decimal, List.isEmpty_eq_false_iff.mpr nonempty]
    simp only [Bool.not_true, Bool.or_false, Bool.false_eq_true, if_false,
      Option.ite_none_right_eq_some, Option.some.injEq, noDot decimal, not_false_eq_true, true_and]
    exact and_congr_right fun _ => eq_comm
  · have mixed : (digits ++ '.' :: others).all Char.isDigit = false := by
      rw [List.all_append, List.all_cons]
      have dot : '.'.isDigit = false := by decide
      simp [dot]
    simp [mixed]

end Lexer

end AnnotatedSql
