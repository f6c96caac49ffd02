import AnnotatedSql.Proofs.Token.Respelling
import AnnotatedSql.Proofs.Token.Spelling

/-!
# Tokens as they are written

When a text that is written down is read as the token it was written as: punctuation always, a word
or a number if nothing follows that goes on with it.
-/

namespace AnnotatedSql

namespace Pattern

/-- Whether no text but the empty one can belong to the pattern. -/
def isDone : Pattern → Bool
  | never | empty => true
  | _ => false

theorem nil_of_isDone {p : Pattern} {t : List Char} (isDone : p.isDone = true)
    (matched : Matches p t) : t = [] := by
  cases p with
  | never => exact absurd matched matches_never
  | empty => exact matches_empty.mp matched
  | _ => cases isDone

end Pattern

namespace Lexer

open Pattern Rule

variable {c : Char} {token rest : List Char} {kind : TokenKind}

/-- A token that no rule goes on with is one whatever follows it. -/
theorem Begins.fixed (nonempty : token ≠ [])
    (read : firstReading Rule.all token = some (.token kind))
    (isDone : (Rule.all.all fun rule => (rule.pattern.deriveBy token).isDone) = true) :
    Begins kind token rest := by
  refine .rule nonempty ⟨read, fun more further _ => ?_⟩
  refine firstReading_eq_none fun rule member matched => ?_
  rw [← matches_deriveBy] at matched
  exact further (nil_of_isDone (List.all_eq_true.mp isDone rule member) matched)

/-- Where only one rule begins so, its texts are tokens if nothing follows that goes on with them. -/
theorem Begins.ofOnly {rule : Rule} (member : rule ∈ Rule.all)
    (reads : rule.reading = .token kind) (only : ∀ other ∈ startingWith c, other = rule)
    (matched : rule.pattern.Matches (c :: token))
    (stops : ∀ d more, d :: more <+: rest → ¬rule.pattern.Matches (c :: token ++ d :: more)) :
    Begins kind (c :: token) rest := by
  refine .rule (by simp) ⟨?_, fun more further starts => ?_⟩
  · cases read : firstReading Rule.all (c :: token) with
    | none => exact absurd read (firstReading_ne_none member matched)
    | some reading =>
      obtain ⟨other, listed, rfl, _⟩ := exists_startingWith read
      rw [only other listed, reads]
  · obtain ⟨d, more, rfl⟩ := List.exists_cons_of_ne_nil further
    refine firstReading_startingWith_eq_none fun other listed goesOn => ?_
    rw [only other listed] at goesOn
    exact stops d more starts goesOn

/-- The characters that a word may begin with. -/
def letters : List Char :=
  (List.range' 65 26 ++ List.range' 97 26 ++ [95]).map Char.ofNat

theorem mem_letters (begins : letter c = true) : c ∈ letters := by
  have ranges : letter c = (decide (65 ≤ c.val ∧ c.val ≤ 90) ||
      (decide (97 ≤ c.val) && decide (c.val ≤ 122)) || c == '_') := rfl
  rw [ranges] at begins
  simp only [Bool.or_eq_true, Bool.and_eq_true, decide_eq_true_eq, beq_iff_eq,
    UInt32.le_iff_toNat_le] at begins
  refine List.mem_map.mpr ⟨c.toNat, ?_, Char.ofNat_toNat c⟩
  simp only [List.mem_append, List.mem_range'_1, List.mem_singleton]
  rcases begins with (⟨least, most⟩ | ⟨least, most⟩) | rfl
  · change 65 ≤ c.toNat at least
    change c.toNat ≤ 90 at most
    omega
  · change 97 ≤ c.toNat at least
    change c.toNat ≤ 122 at most
    omega
  · decide

def digits : List Char := (List.range' 48 10).map Char.ofNat

theorem mem_digits (digit : c.isDigit = true) : c ∈ digits := by
  refine List.mem_map.mpr ⟨c.toNat, ?_, Char.ofNat_toNat c⟩
  have range : 48 ≤ c.toNat ∧ c.toNat ≤ 57 := Char.isDigit_iff_toNat.mp digit
  rw [List.mem_range'_1]
  omega

/-- Where all rules that begin so give one reading, and one rule gives it, it is the only one. -/
theorem only_of_reading {chars : List Char} {reading : Reading} {rule : Rule}
    (all : (chars.all fun c => (startingWith c).all (·.reading == reading)) = true)
    (only : Rule.all.filter (·.reading = reading) = [rule]) (listed : c ∈ chars) :
    ∀ other ∈ startingWith c, other = rule := by
  intro other member
  have read := List.all_eq_true.mp (List.all_eq_true.mp all c listed) other member
  have chosen : other ∈ Rule.all.filter (·.reading = reading) :=
    List.mem_filter.mpr ⟨(List.mem_filter.mp member).1, by simpa using read⟩
  rwa [only, List.mem_singleton] at chosen

/-- A word is an identifier if no word character follows. -/
theorem Begins.word (matched : Matches word token)
    (stops : ∀ d ∈ rest.head?, wordChar d = false) : Begins .ident token rest := by
  cases token with
  | nil => exact absurd rfl (all_wordChar matched).1
  | cons c token =>
    obtain ⟨begins, words⟩ := matches_word.mp matched
    have all : (letters.all fun c => (startingWith c).all (·.reading == .token .ident)) = true := by
      decide +kernel
    have only : Rule.all.filter (·.reading = .token .ident) = [⟨.token .ident, Rule.word⟩] := rfl
    have member : (⟨.token .ident, Rule.word⟩ : Rule) ∈ Rule.all := by simp [Rule.all]
    refine .ofOnly member rfl (only_of_reading all only (mem_letters begins)) matched ?_
    rintro d more ⟨tail, rfl⟩ goesOn
    have longer := (matches_word.mp goesOn).2
    have refused := stops d rfl
    simp [refused] at longer

/-- A run of digits is a number if neither a digit nor a point follows. -/
theorem Begins.digits (nonempty : token ≠ []) (decimal : token.all Char.isDigit = true)
    (stops : ∀ d ∈ rest.head?, d.isDigit = false ∧ d ≠ '.') : Begins .number token rest := by
  obtain ⟨c, token, rfl⟩ := List.exists_cons_of_ne_nil nonempty
  have all : (Lexer.digits.all fun c => (startingWith c).all (·.reading == .token .number)) =
      true := by decide +kernel
  have only : Rule.all.filter (·.reading = .token .number) = [⟨.token .number, number⟩] := rfl
  have member : (⟨.token .number, number⟩ : Rule) ∈ Rule.all := by simp [Rule.all, number]
  have digit : c.isDigit = true := List.all_eq_true.mp decimal c List.mem_cons_self
  have matched : Matches number (c :: token) :=
    matches_number.mpr ⟨c :: token, [], by simp, by simp, decimal, Or.inl rfl⟩
  refine .ofOnly member rfl (only_of_reading all only (mem_digits digit)) matched ?_
  rintro d more ⟨tail, rfl⟩ goesOn
  obtain ⟨noDigit, noPoint⟩ := stops d rfl
  obtain ⟨whole, fraction, same, _, decimalWhole, ends⟩ := matches_number.mp goesOn
  have pointFirst : ∀ {e others}, fraction = e :: others → e = '.' := by
    rintro e others split
    rcases ends with rfl | ⟨_, rfl, _⟩ <;> cases split
    rfl
  rcases List.append_eq_append_iff.mp same with ⟨between, longer, further⟩ | ⟨between, shorter, further⟩
  · cases between with
    | nil => exact noPoint (pointFirst further.symm)
    | cons e between =>
      obtain ⟨rfl, _⟩ := List.cons.inj further
      have allDigits := List.all_eq_true.mp decimalWhole d (by simp [longer])
      rw [noDigit] at allDigits
      cases allDigits
  · cases between with
    | nil => exact noPoint (pointFirst further)
    | cons e between =>
      have isPoint := pointFirst further
      have isDigit := List.all_eq_true.mp decimal e (by simp [shorter])
      rw [isPoint] at isDigit
      exact absurd isDigit (by decide)

/-- A space is a token of its own if no more blanks follow. -/
theorem Begins.space (stops : ∀ d ∈ rest.head?, blankChar d = false) :
    Begins .whitespace [' '] rest := by
  have only : startingWith ' ' = [⟨.token .whitespace, oneOrMore (char blankChar)⟩] := rfl
  have member : (⟨.token .whitespace, oneOrMore (char blankChar)⟩ : Rule) ∈ Rule.all := by
    simp [Rule.all]
  refine .ofOnly member rfl (fun other listed => ?_) ?_ ?_
  · rwa [only, List.mem_singleton] at listed
  · exact matches_oneOrMore_char.mpr ⟨by simp, by decide⟩
  · rintro d more ⟨tail, rfl⟩ goesOn
    have longer := (matches_oneOrMore_char.mp goesOn).2
    have refused := stops d rfl
    simp [refused] at longer

end Lexer

end AnnotatedSql
