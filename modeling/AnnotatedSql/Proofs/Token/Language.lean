import AnnotatedSql.Proofs.Token.Avoidance

/-!
# What the rules match

The texts of the rules for words, placeholders, quotes, tags and comments, said of their characters.
Quotes and comments end at their first end; how that is found shows from one character at a time.
-/

namespace AnnotatedSql

namespace Pattern

variable {accepts : Char → Bool} {t : List Char}

@[simp] theorem matches_star_char : Matches (star (char accepts)) t ↔ t.all accepts = true := by
  induction t with
  | nil => simp [Matches.starNil]
  | cons c t ih =>
    rw [matches_star_cons, List.all_cons, Bool.and_eq_true, ← ih]
    constructor
    · rintro ⟨a, b, rfl, first, rest⟩
      obtain ⟨d, accepted, same⟩ := matches_char.mp first
      cases same
      exact ⟨accepted, rest⟩
    · rintro ⟨accepted, rest⟩
      exact ⟨[], t, rfl, .char accepted, rest⟩

theorem matches_char_cons {c : Char} :
    Matches (char accepts) (c :: t) ↔ accepts c = true ∧ t = [] := by
  rw [matches_char]
  constructor
  · rintro ⟨d, accepted, same⟩
    cases same
    exact ⟨accepted, rfl⟩
  · rintro ⟨accepted, rfl⟩
    exact ⟨c, accepted, rfl⟩

theorem matches_char_seq {p : Pattern} {c : Char} :
    Matches (seq (char accepts) p) (c :: t) ↔ accepts c = true ∧ Matches p t := by
  rw [matches_seq_cons]
  constructor
  · rintro (⟨a, b, rfl, first, rest⟩ | ⟨impossible, _⟩)
    · obtain ⟨d, accepted, same⟩ := matches_char.mp first
      cases same
      exact ⟨accepted, rest⟩
    · obtain ⟨d, _, same⟩ := matches_char.mp impossible
      cases same
  · rintro ⟨accepted, rest⟩
    exact Or.inl ⟨[], t, rfl, .char accepted, rest⟩

theorem not_matches_char_seq_nil {p : Pattern} : ¬Matches (seq (char accepts) p) [] := by
  rw [← nullable_iff]
  simp [nullable]

theorem matches_seq_star_cons {p q : Pattern} {c : Char} : Matches (seq (star p) q) (c :: t) ↔
    (∃ a b, t = a ++ b ∧ Matches p (c :: a) ∧ Matches (seq (star p) q) b) ∨ Matches q (c :: t) := by
  rw [matches_seq_cons]
  simp only [matches_star_cons, Matches.starNil, true_and]
  apply or_congr_left
  simp only [matches_seq]
  constructor
  · rintro ⟨_, d, rfl, ⟨a, b, rfl, first, rest⟩, second⟩
    exact ⟨a, b ++ d, by simp, first, b, d, rfl, rest, second⟩
  · rintro ⟨a, _, rfl, first, b, d, rfl, rest, second⟩
    exact ⟨a ++ b, d, by simp, ⟨a, b, rfl, first, rest⟩, second⟩

theorem matches_seq_assoc {p q r : Pattern} :
    Matches (seq (seq p q) r) t ↔ Matches (seq p (seq q r)) t := by
  simp only [matches_seq]
  constructor
  · rintro ⟨_, c, rfl, ⟨a, b, rfl, first, second⟩, third⟩
    exact ⟨a, b ++ c, by simp, first, b, c, rfl, second, third⟩
  · rintro ⟨a, _, rfl, first, b, c, rfl, second, third⟩
    exact ⟨a ++ b, c, by simp, ⟨a, b, rfl, first, second⟩, third⟩

theorem matches_text {spelling : List Char} : Matches (text spelling) t ↔ t = spelling := by
  fun_induction text spelling generalizing t with
  | case1 => exact matches_empty
  | case2 c => simp
  | case3 c cs _ ih =>
    rw [matches_seq]
    simp only [matches_char, beq_iff_eq, ih]
    constructor
    · rintro ⟨a, b, rfl, ⟨d, rfl, rfl⟩, rfl⟩
      rfl
    · rintro rfl
      exact ⟨[c], cs, rfl, ⟨c, rfl, rfl⟩, rfl⟩

end Pattern

namespace Rule

open Pattern

variable {c : Char} {t more : List Char}

/-! ## Words and placeholders -/

theorem matches_word : Matches word (c :: t) ↔ letter c = true ∧ t.all wordChar = true := by
  unfold word
  rw [matches_char_seq, matches_star_char]

theorem matches_oneOrMore_char {accepts : Char → Bool} :
    Matches (oneOrMore (char accepts)) t ↔ t ≠ [] ∧ t.all accepts = true := by
  unfold oneOrMore
  cases t with
  | nil => simp [not_matches_char_seq_nil]
  | cons c t => simp [matches_char_seq]

/-- The pattern of `$1`. -/
def positional : Pattern := seq (one '$') (oneOrMore (char Char.isDigit))

/-- The pattern of `:name`. -/
def named : Pattern := seq (one ':') word

theorem matches_one_seq {p : Pattern} :
    Matches (seq (one c) p) t ↔ ∃ u, t = c :: u ∧ Matches p u := by
  unfold one
  cases t with
  | nil => simp [not_matches_char_seq_nil]
  | cons d t =>
    rw [matches_char_seq, beq_iff_eq]
    constructor
    · rintro ⟨rfl, rest⟩
      exact ⟨t, rfl, rest⟩
    · rintro ⟨u, same, rest⟩
      cases same
      exact ⟨rfl, rest⟩

theorem matches_positional :
    Matches positional t ↔ ∃ u, t = '$' :: u ∧ u ≠ [] ∧ u.all Char.isDigit = true := by
  unfold positional
  simp only [matches_one_seq, matches_oneOrMore_char]

theorem matches_named : Matches named t ↔ ∃ u, t = ':' :: u ∧ Matches word u := matches_one_seq

theorem wordChar_of_letter (begins : letter c = true) : wordChar c = true := by
  simp only [letter, wordChar, Char.isAlphanum, Bool.or_eq_true] at *
  rcases begins with alpha | underscore
  · exact Or.inl (Or.inl alpha)
  · exact Or.inr underscore

theorem wordChar_of_isDigit (digit : c.isDigit = true) : wordChar c = true := by
  simp [wordChar, Char.isAlphanum, digit]

theorem not_letter_of_isDigit (digit : c.isDigit = true) : letter c = false := by
  have ordered : 48 ≤ c.toNat ∧ c.toNat ≤ 57 := Char.isDigit_iff_toNat.mp digit
  have code : c.toNat ∈ List.range' 48 10 := by
    rw [List.mem_range'_1]
    omega
  have none : ((List.range' 48 10).all fun n => !letter (Char.ofNat n)) = true := by decide
  have plain := List.all_eq_true.mp none c.toNat code
  rwa [Char.ofNat_toNat, Bool.not_eq_true'] at plain

theorem all_wordChar (matched : Matches word t) : t ≠ [] ∧ t.all wordChar = true := by
  cases t with
  | nil => exact absurd matched not_matches_char_seq_nil
  | cons c t =>
    obtain ⟨begins, others⟩ := matches_word.mp matched
    exact ⟨by simp, by simp [wordChar_of_letter begins, others]⟩

/-- A placeholder is its marker and a word, if digits are one. -/
theorem positional_word (matched : Matches positional t) :
    ∃ u, t = '$' :: u ∧ u.all wordChar = true := by
  obtain ⟨u, rfl, _, digits⟩ := matches_positional.mp matched
  refine ⟨u, rfl, ?_⟩
  rw [List.all_eq_true] at digits ⊢
  exact fun d member => wordChar_of_isDigit (digits d member)

theorem named_word (matched : Matches named t) : ∃ u, t = ':' :: u ∧ u.all wordChar = true := by
  obtain ⟨u, rfl, isWord⟩ := matches_named.mp matched
  exact ⟨u, rfl, (all_wordChar isWord).2⟩

/-- A tag is a word between dollar signs, or nothing between them. -/
theorem matches_dollarTag :
    Matches dollarTag t ↔ ∃ u, t = '$' :: u ++ ['$'] ∧ (Matches word u ∨ u = []) := by
  unfold dollarTag zeroOrOne
  rw [matches_one_seq]
  simp only [matches_seq, one, matches_alt, matches_empty, matches_char, beq_iff_eq]
  constructor
  · rintro ⟨_, rfl, u, _, rfl, inside, d, rfl, rfl⟩
    exact ⟨u, rfl, inside⟩
  · rintro ⟨u, rfl, inside⟩
    exact ⟨_, rfl, u, ['$'], rfl, inside, '$', rfl, rfl⟩

theorem not_mem_of_tag {u : List Char} (inside : Matches word u ∨ u = []) : '$' ∉ u := by
  intro member
  rcases inside with inside | rfl
  · exact absurd (List.all_eq_true.mp (all_wordChar inside).2 '$' member) (by decide)
  · cases member

/-- No digit stands after the dollar sign of a tag. -/
theorem not_isDigit_of_dollarTag (matched : Matches dollarTag ('$' :: c :: t)) :
    c.isDigit = false := by
  obtain ⟨u, same, inside⟩ := matches_dollarTag.mp matched
  cases digit : c.isDigit with
  | false => rfl
  | true =>
    cases u with
    | nil =>
      cases same
      exact absurd digit (by decide)
    | cons d u =>
      cases same
      rcases inside with inside | impossible
      · have begins := (matches_word.mp inside).1
        rw [not_letter_of_isDigit digit] at begins
        cases begins
      · cases impossible

/-! ## Quotes -/

/-- Whether a text ends with the quote that closes it. `pending` tells that the character before it
is a quote, which closes unless another follows. -/
def closesQuote (quote : Char) (pending : Bool) : List Char → Bool
  | [] => pending
  | c :: t =>
    if c == quote then closesQuote quote (!pending) t else !pending && closesQuote quote false t

/-- What follows the opening quote. -/
def untilQuote (quote : Char) : Pattern :=
  seq (star (alt (char (isNot quote)) (seq (one quote) (one quote)))) (one quote)

theorem matches_untilQuote_cons {quote : Char} : Matches (untilQuote quote) (c :: t) ↔
    c ≠ quote ∧ Matches (untilQuote quote) t ∨
      c = quote ∧ (t = [] ∨ ∃ u, t = quote :: u ∧ Matches (untilQuote quote) u) := by
  have closing : Matches (one quote) (c :: t) ↔ c = quote ∧ t = [] := by
    rw [one, matches_char_cons, beq_iff_eq]
  have plain : ∀ a, Matches (char (isNot quote)) (c :: a) ↔ c ≠ quote ∧ a = [] := by
    intro a
    rw [matches_char_cons, isNot, bne_iff_ne]
  have doubled : ∀ a, Matches (seq (one quote) (one quote)) (c :: a) ↔ c = quote ∧ a = [quote] := by
    intro a
    rw [one, matches_char_seq]
    simp
  unfold untilQuote
  rw [matches_seq_star_cons, closing]
  simp only [matches_alt, plain, doubled]
  constructor
  · rintro (⟨a, b, rfl, ⟨different, rfl⟩ | ⟨same, rfl⟩, rest⟩ | ⟨same, rfl⟩)
    · exact Or.inl ⟨different, rest⟩
    · exact Or.inr ⟨same, Or.inr ⟨b, rfl, rest⟩⟩
    · exact Or.inr ⟨same, Or.inl rfl⟩
  · rintro (⟨different, rest⟩ | ⟨same, rfl | ⟨u, rfl, rest⟩⟩)
    · exact Or.inl ⟨[], t, rfl, Or.inl ⟨different, rfl⟩, rest⟩
    · exact Or.inr ⟨same, rfl⟩
    · exact Or.inl ⟨[quote], u, rfl, Or.inr ⟨same, rfl⟩, rest⟩

theorem matches_untilQuote {quote : Char} (t : List Char) :
    (Matches (untilQuote quote) t ↔ closesQuote quote false t = true) ∧
      ((t = [] ∨ ∃ u, t = quote :: u ∧ Matches (untilQuote quote) u) ↔
        closesQuote quote true t = true) := by
  induction t with
  | nil =>
    rw [← nullable_iff]
    simp [untilQuote, nullable, one, closesQuote]
  | cons c t ih =>
    rw [matches_untilQuote_cons, ih.1, ih.2]
    by_cases same : c = quote
    · subst same
      simp [closesQuote, ih.1]
    · simp [closesQuote, same]

theorem matches_quoted {quote : Char} :
    Matches (quoted quote) (c :: t) ↔ c = quote ∧ closesQuote quote false t = true := by
  unfold quoted
  rw [one, matches_char_seq, beq_iff_eq, ← (matches_untilQuote t).1]
  rfl

/-- A closed quote goes on only with a quote. -/
theorem closesQuote_append {quote : Char} {pending : Bool}
    (closed : closesQuote quote pending t = true)
    (longer : closesQuote quote pending (t ++ c :: more) = true) : c = quote := by
  induction t generalizing pending with
  | nil =>
    obtain rfl : pending = true := closed
    by_cases same : c = quote
    · exact same
    · simp [closesQuote, same] at longer
  | cons d t ih =>
    rw [List.cons_append] at longer
    unfold closesQuote at closed longer
    by_cases same : d = quote
    · simp only [same, beq_self_eq_true, if_true] at closed longer
      exact ih closed longer
    · simp only [beq_iff_eq, same, if_false, Bool.and_eq_true] at closed longer
      exact ih closed.2 longer.2

/-- Two quoted texts side by side are one. -/
theorem closesQuote_join {quote : Char} {pending : Bool}
    (first : closesQuote quote pending t = true)
    (second : closesQuote quote false more = true) :
    closesQuote quote pending (t ++ quote :: more) = true := by
  induction t generalizing pending with
  | nil =>
    obtain rfl : pending = true := first
    simpa [closesQuote] using second
  | cons d t ih =>
    rw [List.cons_append]
    unfold closesQuote at first ⊢
    by_cases same : d = quote
    · simp only [same, beq_self_eq_true, if_true] at first ⊢
      exact ih first
    · simp only [beq_iff_eq, same, if_false, Bool.and_eq_true] at first ⊢
      exact ⟨first.1, ih first.2⟩

/-! ## Comments -/

theorem all_isNot {excluded : Char} : t.all (isNot excluded) = true ↔ excluded ∉ t := by
  rw [List.all_eq_true]
  constructor
  · intro others member
    have different := others excluded member
    simp [isNot] at different
  · intro missing c member
    rw [isNot, bne_iff_ne]
    rintro rfl
    exact missing member

theorem matches_lineComment :
    Matches lineComment t ↔ ∃ u, t = '-' :: '-' :: u ∧ '\n' ∉ u := by
  unfold lineComment
  rw [matches_seq]
  simp only [matches_text, matches_star_char, all_isNot]
  constructor
  · rintro ⟨_, u, rfl, rfl, missing⟩
    exact ⟨u, rfl, missing⟩
  · rintro ⟨u, rfl, missing⟩
    exact ⟨['-', '-'], u, rfl, rfl, missing⟩

/-- Whether the first `*/` ends the text. `star` tells that the character before it is a star. -/
def closesComment (star : Bool) : List Char → Bool
  | [] => false
  | c :: t => if star && c == '/' then t.isEmpty else closesComment (c == '*') t

/-- What follows the opening of a comment. -/
def untilSlash : Pattern := seq throughStars (seq (star onToStars) (one '/'))

/-- What follows a star inside of a comment. -/
def afterStar : Pattern := seq (star (one '*')) (seq (star onToStars) (one '/'))

theorem matches_untilSlash (t : List Char) :
    (Matches untilSlash t ↔ closesComment false t = true) ∧
      (Matches afterStar t ↔ closesComment true t = true) := by
  induction t with
  | nil =>
    rw [← nullable_iff, ← nullable_iff]
    exact ⟨by decide, by decide⟩
  | cons c t ih =>
    rw [← matches_derive, ← matches_derive, closesComment, closesComment]
    by_cases starred : c = '*'
    · subst starred
      exact ⟨ih.2, ih.2⟩
    · by_cases slashed : c = '/'
      · subst slashed
        refine ⟨ih.1, ?_⟩
        have ended : afterStar.derive '/' = empty := rfl
        rw [ended, matches_empty]
        simp
      · have inside : untilSlash.derive c = untilSlash := by
          simp [untilSlash, throughStars, derive, nullable, Pattern.sequence, either, one,
            oneOrMore, isNot, starred]
        have further : afterStar.derive c = seq (seq throughStars (star onToStars)) (one '/') := by
          simp [afterStar, onToStars, throughStars, derive, nullable, Pattern.sequence, either, one,
            starred, slashed]
        have restarts : seq throughStars (seq (star onToStars) (one '/')) = untilSlash := rfl
        have plain : (c == '*') = false := by simp [starred]
        rw [inside, further, matches_seq_assoc, restarts, ih.1]
        simp [slashed, plain]

/-- A closed comment does not go on. -/
theorem closesComment_append {star : Bool} (closed : closesComment star t = true)
    (longer : closesComment star (t ++ more) = true) : more = [] := by
  induction t generalizing star with
  | nil => cases closed
  | cons c t ih =>
    rw [List.cons_append] at longer
    unfold closesComment at closed longer
    by_cases ends : (star && c == '/') = true
    · simp only [ends, if_true, List.isEmpty_iff, List.append_eq_nil_iff] at closed longer
      exact longer.2
    · simp only [ends, if_false, Bool.false_eq_true] at closed longer
      exact ih closed longer

theorem matches_blockComment :
    Matches blockComment t ↔ ∃ u, t = '/' :: '*' :: u ∧ closesComment false u = true := by
  have parts : blockComment = seq (.text ['/', '*']) untilSlash := rfl
  rw [parts, matches_seq]
  simp only [matches_text, fun u => (matches_untilSlash u).1]
  constructor
  · rintro ⟨_, u, rfl, rfl, closed⟩
    exact ⟨u, rfl, closed⟩
  · rintro ⟨u, rfl, closed⟩
    exact ⟨['/', '*'], u, rfl, rfl, closed⟩

end Rule

end AnnotatedSql
