import AnnotatedSql.Proofs.Token.Cutting
import AnnotatedSql.Proofs.Token.Trimming
import AnnotatedSql.Proofs.Token.Writing

/-!
# Comments that give way to a space

Where a comment is a piece of a text, a space in its place leaves the same meaning. What could go
wrong is that a piece before it goes on over the space. Only blanks, quoted text and comments
contain a space at all, and each of them would have gone on over the comment as well.
-/

namespace AnnotatedSql

/-- The start of a text ends before a character of it, or goes on over it. -/
theorem prefix_cases {part left right : List Char} {c : Char}
    (starts : part <+: left ++ c :: right) :
    part <+: left ∨ ∃ others, part = left ++ c :: others ∧ others <+: right := by
  obtain ⟨after, whole⟩ := starts
  rcases List.append_eq_append_iff.mp whole with ⟨between, rfl, _⟩ | ⟨between, rfl, ends⟩
  · exact Or.inl (List.prefix_append _ _)
  · cases between with
    | nil => exact Or.inl (by simp)
    | cons d between =>
      obtain ⟨rfl, rfl⟩ := List.cons.inj ends
      exact Or.inr ⟨between, rfl, List.prefix_append _ _⟩

/-- What avoids a character stands on one side of it. -/
theorem infix_of_not_mem {part left right : List Char} {c : Char} (avoided : c ∉ part)
    (occurs : part <:+: left ++ c :: right) : part <:+: left ∨ part <:+: right := by
  obtain ⟨before, after, whole⟩ := occurs
  rcases prefix_cases ⟨after, whole⟩ with short | ⟨others, split, within⟩
  · exact Or.inl ((List.suffix_append _ _).isInfix.trans short.isInfix)
  · rcases List.append_eq_append_iff.mp split with ⟨middle, _, inside⟩ | ⟨middle, _, inside⟩
    · exact absurd (by simp [inside]) avoided
    · cases middle with
      | nil => exact absurd (by simp [← inside.trans (List.nil_append _)]) avoided
      | cons d middle =>
        obtain ⟨rfl, rfl⟩ := List.cons.inj inside
        exact Or.inr ((List.suffix_append _ _).isInfix.trans within.isInfix)

namespace Rule

/-- A text that neither closes a quoted text nor has done so earlier can still go on to. -/
theorem closesQuote_goesOn (quote : Char) (pending : Bool) (text : List Char) :
    (∃ more, closesQuote quote pending (text ++ more) = true) ∨
      ∃ shorter, shorter <+: text ∧ closesQuote quote pending shorter = true := by
  induction text generalizing pending with
  | nil =>
    cases pending
    · exact Or.inl ⟨[quote], by simp [closesQuote]⟩
    · exact Or.inr ⟨[], List.nil_prefix, rfl⟩
  | cons c text ih =>
    have step : ∀ next, (∀ t, closesQuote quote pending (c :: t) = closesQuote quote next t) →
        (∃ more, closesQuote quote pending (c :: text ++ more) = true) ∨
          ∃ shorter, shorter <+: c :: text ∧ closesQuote quote pending shorter = true := by
      intro next same
      rcases ih next with ⟨more, closed⟩ | ⟨shorter, starts, closed⟩
      · exact Or.inl ⟨more, by rw [List.cons_append, same, closed]⟩
      · exact Or.inr ⟨c :: shorter, List.cons_prefix_cons.mpr ⟨rfl, starts⟩, by rw [same, closed]⟩
    by_cases same : c = quote
    · exact step (!pending) fun t => by simp [closesQuote, same]
    · cases pending
      · exact step false fun t => by simp [closesQuote, same]
      · exact Or.inr ⟨[], List.nil_prefix, rfl⟩

end Rule

namespace Lexer

open Pattern Rule

variable {kind : TokenKind} {reading : Reading}
  {token fault before comment rest others text : List Char} {c quote : Char}

/-! ## Texts with a space -/

theorem space_patterns :
    (Rule.all.filter fun rule => !rule.pattern.avoids ' ').map Rule.pattern =
    [quoted '"', quoted '\'', oneOrMore (char blankChar), lineComment, blockComment] := rfl

/-- Only blanks, quoted texts and comments contain a space. -/
theorem matches_with_space {rule : Rule} (member : rule ∈ Rule.all)
    (matched : rule.pattern.Matches text) (space : ' ' ∈ text) :
    (∃ quote inner, (quote = '"' ∨ quote = '\'') ∧ text = quote :: inner ∧
      closesQuote quote false inner = true) ∨
    text.all blankChar = true ∨
    (∃ inner, text = '-' :: '-' :: inner ∧ '\n' ∉ inner) ∨
    ∃ inner, text = '/' :: '*' :: inner ∧ closesComment false inner = true := by
  have listed : rule.pattern ∈
      (Rule.all.filter fun rule => !rule.pattern.avoids ' ').map Rule.pattern := by
    refine List.mem_map_of_mem (List.mem_filter.mpr ⟨member, ?_⟩)
    cases avoided : rule.pattern.avoids ' ' with
    | false => rfl
    | true => exact absurd space (not_mem_of_avoids matched avoided)
  obtain ⟨c, tail, rfl⟩ := List.exists_cons_of_ne_nil (List.ne_nil_of_mem space)
  rw [space_patterns] at listed
  simp only [List.mem_cons, List.not_mem_nil, or_false] at listed
  rcases listed with same | same | same | same | same <;> rw [same] at matched
  · obtain ⟨rfl, closed⟩ := matches_quoted.mp matched
    exact Or.inl ⟨_, tail, Or.inl rfl, rfl, closed⟩
  · obtain ⟨rfl, closed⟩ := matches_quoted.mp matched
    exact Or.inl ⟨_, tail, Or.inr rfl, rfl, closed⟩
  · exact Or.inr (Or.inl (matches_oneOrMore_char.mp matched).2)
  · exact Or.inr (Or.inr (Or.inl (matches_lineComment.mp matched)))
  · exact Or.inr (Or.inr (Or.inr (matches_blockComment.mp matched)))

theorem whitespace_mem : (⟨.token .whitespace, oneOrMore (char blankChar)⟩ : Rule) ∈ Rule.all := by
  simp [Rule.all]

/-- What is all blanks within a line is whitespace. -/
theorem whitespace_of_blank (nonempty : token ≠ []) (blank : token.all blankChar = true)
    (read : firstReading Rule.all token = some reading) : reading = .token .whitespace := by
  obtain ⟨c, token, rfl⟩ := List.exists_cons_of_ne_nil nonempty
  obtain ⟨rule, member, rfl, _⟩ := exists_startingWith read
  have first : blankChar c = true := List.all_eq_true.mp blank c List.mem_cons_self
  rcases reading_of_blank (isBlank_of_blankChar first) member with newline | whitespace
  · rw [newline] at read
    rcases text_of_newline read with same | same
    · exact absurd (same ▸ blank) (by decide)
    · exact absurd (same ▸ blank) (by decide)
  · exact whitespace

/-! ## Quotes -/

section

variable (quotes : quote = '"' ∨ quote = '\'')
include quotes

theorem startingWith_of_quote :
    ∃ reading, startingWith quote = [⟨.token reading, quoted quote⟩] := by
  rcases quotes with rfl | rfl
  · exact ⟨_, startingWith_doubleQuote⟩
  · exact ⟨_, startingWith_quote⟩

theorem quoted_mem : ∃ rule ∈ Rule.all, rule.pattern = quoted quote := by
  obtain ⟨reading, only⟩ := startingWith_of_quote quotes
  have listed : ⟨.token reading, quoted quote⟩ ∈ startingWith quote := by
    rw [only]
    exact List.mem_cons_self
  exact ⟨_, (List.mem_filter.mp listed).1, rfl⟩

/-- What is read from a quote on is closed. -/
theorem closed_of_reading (read : firstReading Rule.all (quote :: token) = some reading) :
    closesQuote quote false token = true := by
  obtain ⟨other, only⟩ := startingWith_of_quote quotes
  obtain ⟨rule, member, _, matched⟩ := exists_startingWith read
  rw [only, List.mem_singleton] at member
  subst member
  exact (matches_quoted.mp matched).2

/-- A quote that is never closed takes all of the text. -/
theorem Fails.nil_of_quote (fails : Fails (quote :: fault) rest) : rest = [] := by
  obtain ⟨rule, member, isQuoted⟩ := quoted_mem quotes
  cases fails with
  | unclosed _ longest _ =>
    obtain ⟨word, tagged, _⟩ := matches_dollarTag.mp (tag_of_reading longest.matched)
    obtain ⟨rfl, _⟩ := List.cons.inj tagged
    rcases quotes with impossible | impossible <;> cases impossible
  | stuck _ unmatched stops =>
    have unclosed : ∀ shorter, shorter <+: fault ++ rest →
        closesQuote quote false shorter ≠ true := by
      intro shorter starts closed
      refine firstReading_ne_none member ?_
        (unmatched (quote :: shorter) (by simp) (List.cons_prefix_cons.mpr ⟨rfl, starts⟩))
      rw [isQuoted]
      exact matches_quoted.mpr ⟨rfl, closed⟩
    have alive : ∀ shorter, shorter <+: fault ++ rest → Alive Rule.all (quote :: shorter) := by
      intro shorter starts
      rcases closesQuote_goesOn quote false shorter with ⟨more, closed⟩ | ⟨less, within, closed⟩
      · refine alive_iff.mpr ⟨rule, member, more, ?_⟩
        rw [isQuoted]
        exact matches_quoted.mpr ⟨rfl, closed⟩
      · exact absurd closed (unclosed less (within.trans starts))
    rcases stops with stops | ⟨c, same, dies⟩
    · cases rest with
      | nil => rfl
      | cons d rest =>
        refine absurd (alive (fault ++ [d]) ?_) (stops.ends d rest rfl)
        rw [List.prefix_append_right_inj]
        exact List.cons_prefix_cons.mpr ⟨rfl, List.nil_prefix⟩
    · cases same
      exact absurd (alive [] List.nil_prefix) dies

end

/-! ## Pieces before a comment -/

/-- The text is cut into whole pieces where `rest` follows. -/
inductive Leads (rest : List Char) : List Char → Prop
  | nil : Leads rest []
  | token {kind : TokenKind} {token before : List Char}
      (begins : Begins kind token (before ++ rest)) (next : Leads rest before) :
      Leads rest (token ++ before)
  | fault {fault before : List Char} (fails : Fails fault (before ++ rest))
      (next : Leads rest before) : Leads rest (fault ++ before)

/-- A tag is not found where it does not occur. -/
theorem distanceTo_eq_none {tag : List Char} : distanceTo tag text = none ↔ ¬tag <:+: text := by
  induction text with
  | nil => simp [distanceTo, List.infix_nil]
  | cons c text ih =>
    rw [distanceTo, List.infix_cons_iff, not_or, ← ih, ← List.isPrefixOf_iff_prefix]
    cases tag.isPrefixOf (c :: text) <;> simp

/-- What no rule matches begins with nothing that goes on over a space. -/
theorem not_matches_stuck (unmatched : Final Rule.all [] (c :: text))
    (noQuote : c ≠ '"' ∧ c ≠ '\'') {more : List Char} (space : ' ' ∈ c :: more) {rule : Rule}
    (member : rule ∈ Rule.all) : ¬rule.pattern.Matches (c :: more) := by
  intro matched
  have single : firstReading Rule.all [c] = none := (final_cons.mp unmatched).1
  have alone : ∀ d, firstReading Rule.all [d] ≠ none → c ≠ d := fun d some same =>
    some (same ▸ single)
  rcases matches_with_space member matched space with
    ⟨quote, inner, quotes, whole, _⟩ | blank | ⟨inner, whole, _⟩ | ⟨inner, whole, _⟩
  · obtain ⟨rfl, _⟩ := List.cons.inj whole
    exact quotes.elim noQuote.1 noQuote.2
  · rw [List.all_cons, Bool.and_eq_true] at blank
    have isBlank : Matches (oneOrMore (char blankChar)) [c] :=
      matches_oneOrMore_char.mpr ⟨by simp, by simp [blank.1]⟩
    exact firstReading_ne_none whitespace_mem isBlank single
  · exact alone '-' (by decide +kernel) (List.cons.inj whole).1
  · exact alone '/' (by decide +kernel) (List.cons.inj whole).1

section

variable (commented : Comment rest comment) (leads : Leads (comment ++ rest) before)
include commented leads

section

variable (longest : Longest Rule.all reading token (before ++ (comment ++ rest)))
include longest

/-- Where quoted text goes on, it does so with more of the kind. -/
theorem Longest.not_over_quote (quotes : quote = '"' ∨ quote = '\'') {inner : List Char}
    (nonempty : token ≠ []) (whole : token ++ (before ++ ' ' :: others) = quote :: inner) :
    closesQuote quote false inner ≠ true := by
  intro goesOn
  obtain ⟨c, token, rfl⟩ := List.exists_cons_of_ne_nil nonempty
  obtain ⟨rfl, rfl⟩ := List.cons.inj whole
  have closed := closed_of_reading quotes longest.matched
  have notSpace : ' ' ≠ c := by
    rcases quotes with rfl | rfl <;> decide
  cases leads with
  | nil => exact notSpace (closesQuote_append closed goesOn)
  | @token kind next before begins _ =>
    obtain ⟨d, next, rfl⟩ := List.exists_cons_of_ne_nil begins.ne_nil
    obtain rfl := closesQuote_append closed goesOn
    obtain ⟨reading, only⟩ := startingWith_of_quote quotes
    obtain ⟨rule, member, isQuoted⟩ := quoted_mem quotes
    refine longest.not_longer member (d :: next) (by simp) (by simp) ?_
    rw [isQuoted]
    exact matches_quoted.mpr ⟨rfl, closesQuote_join closed (begins.closesQuote only)⟩
  | @fault next before fails _ =>
    obtain ⟨d, next, rfl⟩ := List.exists_cons_of_ne_nil fails.ne_nil
    obtain rfl := closesQuote_append closed goesOn
    obtain ⟨e, tail, rfl, _⟩ := commented.starts
    have none := fails.nil_of_quote quotes
    simp at none

omit leads in
theorem Longest.not_over_lineComment {inner : List Char} (nonempty : token ≠ [])
    (whole : token ++ (before ++ ' ' :: others) = '-' :: '-' :: inner) : '\n' ∈ inner := by
  by_contra oneLine
  have member : (⟨.token .lineComment, lineComment⟩ : Rule) ∈ Rule.all := by simp [Rule.all]
  obtain ⟨c, token, rfl⟩ := List.exists_cons_of_ne_nil nonempty
  obtain ⟨rfl, follows⟩ := List.cons.inj whole
  cases token with
  | nil =>
    cases before with
    | nil => cases follows
    | cons d before =>
      obtain ⟨rfl, _⟩ := List.cons.inj follows
      exact longest.not_longer member ['-'] (by simp) (by simp)
        (matches_lineComment.mpr ⟨[], rfl, by simp⟩)
  | cons d token =>
    obtain ⟨rfl, rfl⟩ := List.cons.inj follows
    have next : ∃ e tail, before ++ (comment ++ rest) = e :: tail ∧ e ≠ '\n' := by
      cases before with
      | nil =>
        obtain ⟨e, tail, rfl, slash | dash⟩ := commented.starts
        · exact ⟨e, tail ++ rest, rfl, by rw [slash]; decide⟩
        · exact ⟨e, tail ++ rest, rfl, by rw [dash]; decide⟩
      | cons e before =>
        refine ⟨e, _, rfl, ?_⟩
        rintro rfl
        exact oneLine (by simp)
    obtain ⟨e, tail, listed, within⟩ := next
    rw [listed] at longest
    refine longest.not_longer member [e] (by simp) (by simp) ?_
    refine matches_lineComment.mpr ⟨token ++ [e], rfl, ?_⟩
    have visible : '\n' ∉ token := fun listed => oneLine (List.mem_append_left _ listed)
    simp [visible, within.symm]

omit commented leads in
/-- The end of a comment that goes on over a space would be found behind a comment as well. -/
theorem Longest.not_over_blockComment {inner : List Char} (nonempty : token ≠ [])
    (within : others <+: rest)
    (whole : token ++ (before ++ ' ' :: others) = '/' :: '*' :: inner) :
    closesComment false inner ≠ true := by
  intro closed
  have member : (⟨.token .blockComment, blockComment⟩ : Rule) ∈ Rule.all := by simp [Rule.all]
  obtain ⟨c, token, rfl⟩ := List.exists_cons_of_ne_nil nonempty
  obtain ⟨rfl, follows⟩ := List.cons.inj whole
  cases token with
  | nil =>
    cases before with
    | nil => cases follows
    | cons d before =>
      obtain ⟨rfl, rfl⟩ := List.cons.inj follows
      have ends : endsComment false (before ++ ' ' :: others) := ⟨_, List.prefix_rfl, closed⟩
      have occurs := (endsComment_iff.mp ends).resolve_left fun impossible =>
        Bool.false_ne_true impossible.1
      have before_or_after := infix_of_not_mem (by decide) occurs
      have still : ['*', '/'] <:+: before ++ (comment ++ rest) := by
        rcases before_or_after with left | right
        · exact left.trans (List.prefix_append _ _).isInfix
        · exact (right.trans within.isInfix).trans ((List.suffix_append _ _).trans
            (List.suffix_append _ _)).isInfix
      obtain ⟨inside, starts, closes⟩ := endsComment_iff.mpr (Or.inr still)
      exact longest.not_longer member ('*' :: inside) (by simp)
        (List.cons_prefix_cons.mpr ⟨rfl, starts⟩) (matches_blockComment.mpr ⟨inside, rfl, closes⟩)
  | cons d token =>
    obtain ⟨rfl, rfl⟩ := List.cons.inj follows
    obtain ⟨rule, listed, read, matched⟩ := exists_startingWith longest.matched
    rw [startingWith_slash, List.mem_cons, List.mem_singleton] at listed
    rcases listed with rfl | rfl
    · have operators := (matches_oneOrMore_char.mp matched).2
      exact absurd (List.all_eq_true.mp operators '*' (by simp)) (by decide)
    · obtain ⟨inside, same, first⟩ := matches_blockComment.mp matched
      cases same
      have none := closesComment_append first closed
      simp at none

/-- The longest match before a comment is the longest one before a space, unless it is blank. -/
theorem Longest.beforeSpace (nonempty : token ≠ []) (visible : reading ≠ .token .whitespace) :
    Longest Rule.all reading token (before ++ ' ' :: rest) := by
  refine ⟨longest.matched, fun more further starts => ?_⟩
  rcases prefix_cases starts with short | ⟨others, rfl, within⟩
  · exact longest.final more further (short.trans (List.prefix_append _ _))
  · refine firstReading_eq_none fun rule member matched => ?_
    rcases matches_with_space member matched (by simp) with
      ⟨quote, inner, quotes, whole, closed⟩ | blank | ⟨inner, whole, oneLine⟩ |
        ⟨inner, whole, closed⟩
    · exact longest.not_over_quote commented leads quotes nonempty whole closed
    · rw [List.all_append, Bool.and_eq_true] at blank
      exact visible (whitespace_of_blank nonempty blank.1 longest.matched)
    · exact oneLine (longest.not_over_lineComment commented nonempty whole)
    · exact longest.not_over_blockComment nonempty within whole closed

end

theorem Begins.beforeSpace (begins : Begins kind token (before ++ (comment ++ rest)))
    (visible : kind ≠ .whitespace) : Begins kind token (before ++ ' ' :: rest) :=
  begins.before fun nonempty longest =>
    longest.beforeSpace commented leads nonempty (by simpa using visible)

/-- A fault before a comment is one before a space. -/
theorem Fails.beforeSpace (fails : Fails fault (before ++ (comment ++ rest))) :
    Fails fault (before ++ ' ' :: rest) := by
  have goesOn : before ++ (comment ++ rest) ≠ [] := by
    obtain ⟨c, tail, rfl, _⟩ := commented.starts
    simp
  obtain ⟨c, fault, rfl⟩ := List.exists_cons_of_ne_nil fails.ne_nil
  have noQuote : c ≠ '"' ∧ c ≠ '\'' := by
    constructor
    · rintro rfl
      exact goesOn (fails.nil_of_quote (Or.inl rfl))
    · rintro rfl
      exact goesOn (fails.nil_of_quote (Or.inr rfl))
  cases fails with
  | unclosed nonempty longest unfound =>
    refine .unclosed nonempty (longest.beforeSpace commented leads nonempty (by simp)) ?_
    rw [distanceTo_eq_none] at unfound ⊢
    intro occurs
    have noSpace : ' ' ∉ c :: fault := not_mem_of_avoids (tag_of_reading longest.matched) rfl
    rcases infix_of_not_mem noSpace occurs with left | right
    · exact unfound (left.trans (List.prefix_append _ _).isInfix)
    · exact unfound (right.trans ((List.suffix_append _ _).trans (List.suffix_append _ _)).isInfix)
  | stuck nonempty unmatched stops =>
    have dead : ∀ more, ' ' ∈ more → ∀ rule ∈ Rule.all, ¬rule.pattern.Matches (c :: more) :=
      fun more space rule member =>
        not_matches_stuck unmatched noQuote (List.mem_cons_of_mem c space) member
    refine .stuck nonempty ?_ (stops.imp_left fun stops => ⟨stops.alive, ?_⟩)
    · intro more further starts
      rw [← List.append_assoc] at starts
      rcases prefix_cases starts with short | ⟨others, rfl, _⟩
      · refine unmatched more further (short.trans ?_)
        rw [← List.append_assoc]
        exact List.prefix_append _ _
      · refine firstReading_eq_none fun rule member => ?_
        exact dead (fault ++ before ++ ' ' :: others) (by simp) rule member
    · intro d tail follows
      cases before with
      | nil =>
        obtain ⟨rfl, _⟩ := List.cons.inj follows
        intro alive
        obtain ⟨rule, member, more, matched⟩ := alive_iff.mp alive
        exact dead (fault ++ [' '] ++ more) (by simp) rule member matched
      | cons e before =>
        obtain ⟨rfl, _⟩ := List.cons.inj follows
        exact stops.ends e _ rfl

end

/-! ## What carries meaning -/

/-- What carries meaning in a text, before which `fault` has been gathered. -/
def meaningfulAfter (fault text : List Char) : List Lexeme :=
  meaningful (join fault (cut text.length text))

theorem meaningfulAfter_cuts {pieces : List Piece} (cuts : Cuts text pieces) :
    meaningfulAfter fault text = meaningful (join fault pieces) := by
  rw [meaningfulAfter, cuts.cut_eq (Nat.le_refl _)]

theorem meaningfulAfter_token (begins : Begins kind token rest) :
    meaningfulAfter fault (token ++ rest) =
      meaningful (flush fault ++ [⟨kind, String.ofList token⟩]) ++ meaningfulAfter [] rest := by
  obtain ⟨pieces, cuts⟩ := exists_cuts rest
  rw [meaningfulAfter_cuts (.token begins cuts), meaningfulAfter_cuts cuts, join]
  unfold meaningful
  rw [← List.filter_append, List.append_assoc]
  rfl

theorem meaningfulAfter_trivia (trivia : kind.isTrivia = true)
    (begins : Begins kind token rest) : meaningfulAfter fault (token ++ rest) =
      meaningful (flush fault) ++ meaningfulAfter [] rest := by
  rw [meaningfulAfter_token begins]
  unfold meaningful
  simp [trivia]

theorem meaningfulAfter_fault {more : List Char} (fails : Fails more rest) :
    meaningfulAfter fault (more ++ rest) = meaningfulAfter (fault ++ more) rest := by
  obtain ⟨pieces, cuts⟩ := exists_cuts rest
  rw [meaningfulAfter_cuts (.fault fails cuts), meaningfulAfter_cuts cuts, join]

/-- Blanks within a line are a token of their own, unless they are part of a line break. -/
theorem Begins.blanks (nonempty : token ≠ []) (blank : token.all blankChar = true)
    (stops : ∀ d ∈ rest.head?, blankChar d = false)
    (noBreak : ∀ tail, ¬(token = ['\r'] ∧ rest = '\n' :: tail)) :
    Begins .whitespace token rest := by
  refine .rule nonempty ⟨?_, fun more further starts => ?_⟩
  · cases read : firstReading Rule.all token with
    | none =>
      exact absurd read
        (firstReading_ne_none whitespace_mem (matches_oneOrMore_char.mpr ⟨nonempty, blank⟩))
    | some reading => rw [whitespace_of_blank nonempty blank read]
  · obtain ⟨d, more, rfl⟩ := List.exists_cons_of_ne_nil further
    obtain ⟨tail, rfl⟩ := starts
    obtain ⟨c, token, rfl⟩ := List.exists_cons_of_ne_nil nonempty
    have first : blankChar c = true := List.all_eq_true.mp blank c List.mem_cons_self
    refine Option.eq_none_iff_forall_ne_some.mpr fun reading read => ?_
    obtain ⟨rule, listed, rfl, _⟩ := exists_startingWith read
    rcases reading_of_blank (isBlank_of_blankChar first) listed with newline | whitespace
    · rw [newline] at read
      rcases text_of_newline read with impossible | whole
      · simp at impossible
      · cases token with
        | nil =>
          cases whole
          exact noBreak tail ⟨rfl, rfl⟩
        | cons e token => simp at whole
    · rw [whitespace] at read
      have longer := all_blankChar_of_reading read
      have refused := stops d rfl
      simp [refused] at longer

theorem Begins.all_blankChar (begins : Begins .whitespace token rest) :
    token.all blankChar = true := by
  cases begins with
  | rule _ longest => exact all_blankChar_of_reading longest.matched
  | quoted impossible _ _ _ _ _ _ => cases impossible

theorem meaningfulAfter_run (nonempty : text ≠ []) (blank : text.all blankChar = true)
    (stops : ∀ d ∈ rest.head?, blankChar d = false) :
    meaningfulAfter fault (text ++ rest) = meaningful (flush fault) ++ meaningfulAfter [] rest := by
  by_cases breaks : ∃ tail, text = ['\r'] ∧ rest = '\n' :: tail
  · obtain ⟨tail, rfl, rfl⟩ := breaks
    have both : Begins .newline ['\r', '\n'] tail :=
      .fixed (by simp) (by decide +kernel) (by decide +kernel)
    have second : Begins .newline ['\n'] tail :=
      .fixed (by simp) (by decide +kernel) (by decide +kernel)
    have left : meaningfulAfter fault (['\r', '\n'] ++ tail) = _ := meaningfulAfter_trivia rfl both
    have right : meaningfulAfter [] (['\n'] ++ tail) = _ := meaningfulAfter_trivia rfl second
    exact left.trans (congrArg _ right.symm)
  · exact meaningfulAfter_trivia rfl
      (.blanks nonempty blank stops fun tail parts => breaks ⟨tail, parts⟩)

/-- Blanks within a line carry no meaning, wherever they stop. -/
theorem meaningfulAfter_blanks (nonempty : text ≠ []) (blank : text.all blankChar = true) :
    meaningfulAfter fault (text ++ rest) = meaningful (flush fault) ++ meaningfulAfter [] rest := by
  have split := List.takeWhile_append_dropWhile (p := blankChar) (l := rest)
  generalize run : rest.takeWhile blankChar = more at split
  generalize left : rest.dropWhile blankChar = others at split
  have moreBlank : more.all blankChar = true := run ▸ List.all_takeWhile
  have stops : ∀ d ∈ others.head?, blankChar d = false := by
    intro d head
    have first := List.head?_dropWhile_not blankChar rest
    rw [left, Option.mem_def.mp head] at first
    exact first
  rw [← split, ← List.append_assoc]
  rw [meaningfulAfter_run (by simp [nonempty]) (by simp [blank, moreBlank]) stops]
  by_cases none : more = []
  · rw [none, List.nil_append]
  · rw [meaningfulAfter_run none moreBlank stops]
    rfl

/-- A comment means no more than a space. -/
theorem meaningfulAfter_replaced (commented : Comment rest comment)
    (leads : Leads (comment ++ rest) before) :
    meaningfulAfter fault (before ++ ' ' :: rest) =
      meaningfulAfter fault (before ++ (comment ++ rest)) := by
  induction leads generalizing fault with
  | nil =>
    obtain ⟨kind, trivia, begins⟩ := Begins.ofComment commented
    have space : meaningfulAfter fault ([' '] ++ rest) = _ :=
      meaningfulAfter_blanks (by simp) (by decide)
    exact space.trans (meaningfulAfter_trivia trivia begins).symm
  | @token kind token before begins next ih =>
    rw [List.append_assoc, List.append_assoc]
    by_cases blank : kind = .whitespace
    · subst blank
      have run := begins.all_blankChar
      rw [meaningfulAfter_blanks begins.ne_nil run, meaningfulAfter_blanks begins.ne_nil run, ih]
    · have stays := begins.beforeSpace commented next blank
      rw [meaningfulAfter_token begins, meaningfulAfter_token stays, ih]
  | @fault more before fails next ih =>
    rw [List.append_assoc, List.append_assoc, meaningfulAfter_fault fails,
      meaningfulAfter_fault (fails.beforeSpace commented next), ih]

end Lexer

end AnnotatedSql
