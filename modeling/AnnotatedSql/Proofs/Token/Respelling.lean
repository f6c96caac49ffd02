import AnnotatedSql.Proofs.Token.Language
import AnnotatedSql.Proofs.Token.Lexing
import Mathlib.Data.List.Forall2

/-!
# Placeholders that are spelled anew

A name in a text may give way to a position or to another name, and the text is still cut at the
same places: all other lexemes stay. A token is as long as it can be, so what could go wrong is that
a token before a placeholder goes on into it. It would have done so before.
-/

namespace AnnotatedSql

open Rule (positional named wordChar)

/-- The second text is the first with new words after a marker in place of some names. -/
inductive Respelled : List Char → List Char → Prop
  | nil : Respelled [] []
  | cons (c : Char) {rest others : List Char} (next : Respelled rest others) :
      Respelled (c :: rest) (c :: others)
  | placeholder {name word rest others : List Char} {marker : Char}
      (written : name.all wordChar = true) (new : word.all wordChar = true)
      (marks : marker = '$' ∨ marker = ':') (next : Respelled rest others) :
      Respelled (':' :: name ++ rest) (marker :: word ++ others)

namespace Respelled

variable {rest others more : List Char} {c : Char}

theorem append_same (text : List Char) (respelled : Respelled rest others) :
    Respelled (text ++ rest) (text ++ others) := by
  induction text with
  | nil => exact respelled
  | cons c text ih => exact .cons c ih

/-- What comes before the first marker is as it was. -/
theorem prefix_of (respelled : Respelled rest others) (starts : more <+: others)
    (noDollar : '$' ∉ more) (noColon : ':' ∉ more) : more <+: rest := by
  induction respelled generalizing more with
  | nil => exact starts
  | cons c _ ih =>
    cases more with
    | nil => exact List.nil_prefix
    | cons d more =>
      obtain ⟨rfl, within⟩ := List.cons_prefix_cons.mp starts
      rw [List.mem_cons, not_or] at noDollar noColon
      exact List.cons_prefix_cons.mpr ⟨rfl, ih within noDollar.2 noColon.2⟩
  | placeholder _ _ marks _ _ =>
    cases more with
    | nil => exact List.nil_prefix
    | cons d more =>
      obtain ⟨rfl, _⟩ := List.cons_prefix_cons.mp starts
      rcases marks with rfl | rfl
      · exact absurd List.mem_cons_self noDollar
      · exact absurd List.mem_cons_self noColon

/-- The first character is as it was, or marks a placeholder in place of a name. -/
theorem head_cases (respelled : Respelled rest (c :: others)) :
    (∃ tail, rest = c :: tail ∧ Respelled tail others) ∨
      (c = '$' ∨ c = ':') ∧ ∃ tail, rest = ':' :: tail := by
  generalize whole : c :: others = text at respelled
  cases respelled with
  | nil => cases whole
  | cons d next =>
    cases whole
    exact Or.inl ⟨_, rfl, next⟩
  | placeholder _ _ marks _ =>
    cases whole
    exact Or.inr ⟨marks, _, rfl⟩

theorem head_eq (respelled : Respelled rest (c :: others)) (noDollar : c ≠ '$') :
    ∃ tail, rest = c :: tail := by
  rcases respelled.head_cases with ⟨tail, same, _⟩ | ⟨rfl | rfl, tail, same⟩
  · exact ⟨tail, same⟩
  · exact absurd rfl noDollar
  · exact ⟨tail, same⟩

end Respelled

/-! ## Where a comment ends -/

namespace Rule

/-- Whether a comment ends in the text; `star` as for `closesComment`. -/
def endsComment (star : Bool) (text : List Char) : Prop :=
  ∃ inside, inside <+: text ∧ closesComment star inside = true

theorem endsComment_cons {star : Bool} {c : Char} {text : List Char} :
    endsComment star (c :: text) ↔ star = true ∧ c = '/' ∨ endsComment (c == '*') text := by
  constructor
  · rintro ⟨inside, starts, closed⟩
    cases inside with
    | nil => cases closed
    | cons d inside =>
      obtain ⟨rfl, within⟩ := List.cons_prefix_cons.mp starts
      unfold closesComment at closed
      by_cases ends : (star && d == '/') = true
      · simp only [Bool.and_eq_true, beq_iff_eq] at ends
        exact Or.inl ends
      · rw [if_neg ends] at closed
        exact Or.inr ⟨inside, within, closed⟩
  · rintro (⟨rfl, rfl⟩ | ⟨inside, within, closed⟩)
    · exact ⟨['/'], List.cons_prefix_cons.mpr ⟨rfl, List.nil_prefix⟩, rfl⟩
    · by_cases ends : (star && c == '/') = true
      · exact ⟨[c], List.cons_prefix_cons.mpr ⟨rfl, List.nil_prefix⟩, by simp [closesComment, ends]⟩
      · refine ⟨c :: inside, List.cons_prefix_cons.mpr ⟨rfl, within⟩, ?_⟩
        simp [closesComment, ends, closed]

/-- A word is no part of the end of a comment. -/
theorem endsComment_word {word text : List Char} (allowed : word.all wordChar = true) :
    endsComment false (word ++ text) ↔ endsComment false text := by
  induction word with
  | nil => rfl
  | cons c word ih =>
    rw [List.all_cons, Bool.and_eq_true] at allowed
    have plain : (c == '*') = false := by
      rw [Bool.eq_false_iff, ne_eq, beq_iff_eq]
      rintro rfl
      exact absurd allowed.1 (by decide)
    rw [List.cons_append, endsComment_cons, plain, ih allowed.2]
    simp

theorem endsComment_respelled {star : Bool} {rest others : List Char}
    (respelled : Respelled rest others) : endsComment star others ↔ endsComment star rest := by
  induction respelled generalizing star with
  | nil => rfl
  | cons c _ ih => rw [endsComment_cons, endsComment_cons, ih]
  | @placeholder name word rest others marker written new marks _ ih =>
    have markerPlain : (marker == '*') = false ∧ marker ≠ '/' := by
      rcases marks with rfl | rfl <;> decide
    rw [List.cons_append, List.cons_append, endsComment_cons, endsComment_cons, markerPlain.1,
      endsComment_word new, ih]
    have colonPlain : (':' == '*') = false := by decide
    rw [colonPlain, endsComment_word written]
    simp [markerPlain.2]

end Rule

namespace Lexer

open Pattern Rule

variable {kind : TokenKind} {token rest others more : List Char} {c : Char}

/-! ## Tokens by their first character -/

theorem startingWith_doubleQuote :
    startingWith '"' = [⟨.token .quotedIdent, quoted '"'⟩] := rfl

theorem startingWith_quote :
    startingWith '\'' = [⟨.token .stringLiteral, quoted '\''⟩] := rfl

theorem startingWith_dollar :
    startingWith '$' = [⟨.token .positionalParam, positional⟩, ⟨.openingTag, dollarTag⟩] := rfl

theorem startingWith_colon :
    startingWith ':' =
      [fixed .doubleColon "::", fixed .colon ":", ⟨.token .namedParam, named⟩] := rfl

theorem startingWith_slash :
    startingWith '/' =
      [⟨.token .operator, oneOrMore (char operatorChar)⟩,
        ⟨.token .blockComment, blockComment⟩] := rfl

theorem tag_of_reading (found : firstReading Rule.all token = some .openingTag) :
    Matches dollarTag token := by
  have only : Rule.all.filter (·.reading = .openingTag) = [⟨.openingTag, dollarTag⟩] := rfl
  exact matches_of_only only found

theorem named_of_reading (found : firstReading Rule.all token = some (.token .namedParam)) :
    Matches named token := by
  have only : Rule.all.filter (·.reading = .token .namedParam) =
    [⟨.token .namedParam, named⟩] := rfl
  exact matches_of_only only found

/-- What begins a longest match that no rule may prolong. -/
theorem Longest.not_longer {reading : Reading} (longest : Longest Rule.all reading token rest)
    {rule : Rule} (member : rule ∈ Rule.all) (more : List Char) (nonempty : more ≠ [])
    (starts : more <+: rest) (matched : rule.pattern.Matches (token ++ more)) : False :=
  firstReading_ne_none member matched (longest.final more nonempty starts)

/-- A token that begins with a quote is quoted. -/
theorem Begins.closesQuote {quote : Char} {reading : TokenKind}
    (begins : Begins kind (quote :: token) rest)
    (only : startingWith quote = [⟨.token reading, Rule.quoted quote⟩]) :
    closesQuote quote false token = true := by
  cases begins with
  | rule _ longest =>
    obtain ⟨rule, member, _, matched⟩ := exists_startingWith longest.matched
    rw [only, List.mem_singleton] at member
    subst member
    exact (matches_quoted.mp matched).2
  | quoted _ tag inner nonempty whole longest _ =>
    obtain ⟨c, tag, rfl⟩ := List.exists_cons_of_ne_nil nonempty
    cases whole
    obtain ⟨rule, member, read, _⟩ := exists_startingWith longest.matched
    rw [only, List.mem_singleton] at member
    subst member
    cases read

/-! ## No token goes on into a placeholder -/

section Overrun

variable {d : Char} (longest : Longest Rule.all (.token kind) (c :: token) rest)
  (respelled : Respelled rest (d :: others)) (starts : more <+: others)

include longest respelled

theorem not_into_doubleColon : ¬Matches (.text "::".toList) (c :: token ++ d :: more) := by
  intro matched
  have whole : c :: (token ++ d :: more) = [':', ':'] := matches_text.mp matched
  cases token with
  | nil =>
    cases whole
    obtain ⟨tail, rfl⟩ := respelled.head_eq (by decide)
    have member : fixed .doubleColon "::" ∈ Rule.all := by simp [Rule.all]
    exact longest.not_longer member [':'] (by simp) (by simp) matched
  | cons e token =>
    have counted := congrArg List.length whole
    simp only [List.length_cons, List.length_append, List.length_nil] at counted
    omega

theorem not_into_quote {quote : Char} {reading : TokenKind} {found : List Lexeme}
    (lexes : Lexes rest found) (plain : quote ≠ '$')
    (only : startingWith quote = [⟨.token reading, Rule.quoted quote⟩]) :
    ¬Matches (Rule.quoted quote) (c :: token ++ d :: more) := by
  intro matched
  obtain ⟨rfl, longer⟩ := matches_quoted.mp matched
  have closed := (Begins.rule (by simp) longest).closesQuote only
  obtain rfl := closesQuote_append closed longer
  obtain ⟨tail, rfl⟩ := respelled.head_eq plain
  -- the text goes on with a quoted token, and the two together were one
  generalize whole : d :: tail = text at lexes
  cases lexes with
  | nil => cases whole
  | @cons _ next others _ begins _ =>
    obtain ⟨e, next, rfl⟩ := List.exists_cons_of_ne_nil begins.ne_nil
    simp only [List.cons_append, List.cons.injEq] at whole
    obtain ⟨rfl, rfl⟩ := whole
    have listed : ⟨.token reading, Rule.quoted d⟩ ∈ startingWith d := by
      rw [only]
      exact List.mem_cons_self
    refine longest.not_longer (List.mem_filter.mp listed).1 (d :: next) (by simp) (by simp) ?_
    exact matches_quoted.mpr ⟨rfl, closesQuote_join closed (begins.closesQuote only)⟩

theorem not_into_lineComment : ¬Matches lineComment (c :: token ++ d :: more) := by
  intro matched
  obtain ⟨text, whole, sameLine⟩ := matches_lineComment.mp matched
  have member : (⟨.token .lineComment, lineComment⟩ : Rule) ∈ Rule.all := by simp [Rule.all]
  cases token with
  | nil =>
    cases whole
    obtain ⟨tail, rfl⟩ := respelled.head_eq (by decide)
    exact longest.not_longer member ['-'] (by simp) (by simp)
      (matches_lineComment.mpr ⟨[], rfl, by simp⟩)
  | cons e token =>
    simp only [List.cons_append, List.cons.injEq] at whole
    obtain ⟨rfl, rfl, rfl⟩ := whole
    have next : ∃ first tail, rest = first :: tail ∧ first ≠ '\n' := by
      rcases respelled.head_cases with ⟨tail, rfl, _⟩ | ⟨_, tail, rfl⟩
      · refine ⟨d, tail, rfl, ?_⟩
        rintro rfl
        exact sameLine (by simp)
      · exact ⟨':', tail, rfl, by decide⟩
    obtain ⟨first, tail, rfl, within⟩ := next
    refine longest.not_longer member [first] (by simp) (by simp) ?_
    refine matches_lineComment.mpr ⟨token ++ [first], rfl, ?_⟩
    simp only [List.mem_append, List.mem_singleton, not_or] at sameLine ⊢
    exact ⟨sameLine.1, fun same => within same.symm⟩

omit respelled in
theorem not_into_dollarTag : ¬Matches dollarTag (c :: token ++ d :: more) := by
  intro matched
  obtain ⟨word, whole, _⟩ := matches_dollarTag.mp matched
  obtain rfl : c = '$' := (List.cons.inj whole).1
  obtain ⟨rule, member, read, tokenMatched⟩ := exists_startingWith longest.matched
  rw [startingWith_dollar, List.mem_cons, List.mem_singleton] at member
  rcases member with rfl | rfl
  · obtain ⟨_, same, nonempty, digits⟩ := matches_positional.mp tokenMatched
    cases same
    obtain ⟨e, token, rfl⟩ := List.exists_cons_of_ne_nil nonempty
    rw [List.all_cons, not_isDigit_of_dollarTag matched] at digits
    cases digits
  · cases read

include starts in
theorem not_into_blockComment : ¬Matches blockComment (c :: token ++ d :: more) := by
  intro matched
  have member : (⟨.token .blockComment, blockComment⟩ : Rule) ∈ Rule.all := by simp [Rule.all]
  obtain ⟨text, whole, closed⟩ := matches_blockComment.mp matched
  cases token with
  | nil =>
    cases whole
    rcases respelled.head_cases with ⟨tail, rfl, further⟩ | ⟨impossible | impossible, _⟩
    · obtain ⟨inside, within, ends⟩ := (endsComment_respelled further).mp ⟨more, starts, closed⟩
      exact longest.not_longer member ('*' :: inside) (by simp)
        (List.cons_prefix_cons.mpr ⟨rfl, within⟩) (matches_blockComment.mpr ⟨inside, rfl, ends⟩)
    · cases impossible
    · cases impossible
  | cons e token =>
    simp only [List.cons_append, List.cons.injEq] at whole
    obtain ⟨rfl, rfl, rfl⟩ := whole
    obtain ⟨rule, listed, _, ended⟩ := exists_startingWith longest.matched
    rw [startingWith_slash, List.mem_cons, List.mem_singleton] at listed
    rcases listed with rfl | rfl
    · have operators := (matches_oneOrMore_char.mp ended).2
      simp only [List.all_cons, Bool.and_eq_true] at operators
      exact absurd operators.2.1 (by decide)
    · obtain ⟨inside, same, before⟩ := matches_blockComment.mp ended
      cases same
      cases closesComment_append before closed

include starts in
/-- No rule matches the token together with more, up to a marker at least, of what follows it
now. -/
theorem not_into_placeholder {found : List Lexeme} (lexes : Lexes rest found) {rule : Rule}
    (member : rule ∈ Rule.all) (marked : '$' ∈ d :: more ∨ ':' ∈ d :: more) :
    ¬rule.pattern.Matches (c :: token ++ d :: more) := by
  intro matched
  have takes : rule.pattern ∈ (Rule.all.filter fun rule =>
      !(rule.pattern.avoids '$' && rule.pattern.avoids ':')).map Rule.pattern := by
    refine List.mem_map_of_mem (List.mem_filter.mpr ⟨member, ?_⟩)
    rw [Bool.not_eq_true', Bool.and_eq_false_iff]
    rcases marked with dollar | colon
    · refine Or.inl (Bool.eq_false_iff.mpr fun avoided => ?_)
      exact not_mem_of_avoids matched avoided (List.mem_append_right _ dollar)
    · refine Or.inr (Bool.eq_false_iff.mpr fun avoided => ?_)
      exact not_mem_of_avoids matched avoided (List.mem_append_right _ colon)
  have noWord : ∀ {marker}, ¬∃ word, c :: token ++ d :: more = marker :: word ∧
      word.all wordChar = true := by
    rintro marker ⟨word, whole, words⟩
    cases whole
    rw [List.all_eq_true] at words
    rcases marked with dollar | colon
    · exact absurd (words '$' (List.mem_append_right _ dollar)) (by decide)
    · exact absurd (words ':' (List.mem_append_right _ colon)) (by decide)
  rw [marker_patterns] at takes
  simp only [List.mem_cons, List.not_mem_nil, or_false] at takes
  rcases takes with same | same | same | same | same | same | same | same | same <;>
    rw [same] at matched
  · exact not_into_doubleColon longest respelled matched
  · have counted := congrArg List.length (matches_text.mp matched)
    simp at counted
  · exact noWord (positional_word matched)
  · exact noWord (named_word matched)
  · exact not_into_quote longest respelled lexes (by decide) startingWith_doubleQuote matched
  · exact not_into_quote longest respelled lexes (by decide) startingWith_quote matched
  · exact not_into_dollarTag longest matched
  · exact not_into_lineComment longest respelled matched
  · exact not_into_blockComment longest respelled starts matched

end Overrun

/-! ## Tokens before and in place of a name -/

/-- A token stays the longest match whatever becomes of the names after it. -/
theorem Longest.respelled {found : List Lexeme} (nonempty : token ≠ [])
    (longest : Longest Rule.all (.token kind) token rest) (lexes : Lexes rest found)
    (respelled : Respelled rest others) : Longest Rule.all (.token kind) token others := by
  refine ⟨longest.matched, fun more further starts => ?_⟩
  by_cases marked : '$' ∈ more ∨ ':' ∈ more
  · obtain ⟨c, token, rfl⟩ := List.exists_cons_of_ne_nil nonempty
    obtain ⟨d, more, rfl⟩ := List.exists_cons_of_ne_nil further
    obtain ⟨tail, rfl⟩ := starts
    have within : more <+: more ++ tail := List.prefix_append _ _
    exact firstReading_eq_none fun rule member =>
      not_into_placeholder longest respelled within lexes member marked
  · rw [not_or] at marked
    exact longest.final more further (respelled.prefix_of starts marked.1 marked.2)

/-- A tag is no part of a longer match. -/
theorem final_tag (tagged : Matches dollarTag token) : Final Rule.all token rest := by
  intro more nonempty _
  obtain ⟨word, rfl, inside⟩ := matches_dollarTag.mp tagged
  refine firstReading_startingWith_eq_none fun rule member matched => ?_
  rw [startingWith_dollar, List.mem_cons, List.mem_singleton] at member
  rcases member with rfl | rfl
  · obtain ⟨_, same, _, digits⟩ := matches_positional.mp matched
    cases same
    have dollar : '$' ∈ word ++ ['$'] ++ more := by simp
    exact absurd (List.all_eq_true.mp digits '$' dollar) (by decide)
  · obtain ⟨other, same, within⟩ := matches_dollarTag.mp matched
    have whole : word ++ '$' :: more = other ++ ['$'] := by simpa using same
    rcases List.append_eq_append_iff.mp whole with ⟨between, longer, rest⟩ | ⟨between, _, rest⟩
    · cases between with
      | nil =>
        cases rest
        exact absurd rfl nonempty
      | cons d between =>
        cases rest
        exact absurd (by simp [longer]) (not_mem_of_tag within)
    · have counted := congrArg List.length rest
      have longer := List.length_pos_iff.mpr nonempty
      simp only [List.length_cons, List.length_append, List.length_nil] at counted
      omega

/-- What stands after a tag has no say in where it first occurs. -/
theorem distanceTo_append (tag inner rest : List Char) :
    distanceTo tag (inner ++ tag ++ rest) = distanceTo tag (inner ++ tag) := by
  induction inner with
  | nil =>
    have first : ∀ {text}, tag <+: text → distanceTo tag text = some 0 := by
      intro text starts
      cases text with
      | nil => simp [distanceTo, List.prefix_nil.mp starts]
      | cons c text =>
        have occurs := List.isPrefixOf_iff_prefix.mpr starts
        simp [distanceTo, occurs]
    rw [List.nil_append, first (List.prefix_append _ _), first List.prefix_rfl]
  | cons c inner ih =>
    have within : tag.isPrefixOf (c :: (inner ++ tag ++ rest)) =
        tag.isPrefixOf (c :: (inner ++ tag)) := by
      rw [Bool.eq_iff_iff, List.isPrefixOf_iff_prefix, List.isPrefixOf_iff_prefix]
      have starts : c :: (inner ++ tag) <+: c :: (inner ++ tag ++ rest) :=
        List.cons_prefix_cons.mpr ⟨rfl, List.prefix_append _ _⟩
      constructor
      · intro longer
        apply List.prefix_of_prefix_length_le longer starts
        simp only [List.length_cons, List.length_append]
        omega
      · exact fun shorter => shorter.trans starts
    rw [List.cons_append, List.cons_append, distanceTo, distanceTo, within, ih]

/-- A dollar-quoted string is one whatever follows it; any other token has to stay the longest
match. -/
theorem Begins.before (begins : Begins kind token rest)
    (stays : token ≠ [] → Longest Rule.all (.token kind) token rest →
      Longest Rule.all (.token kind) token others) : Begins kind token others := by
  cases begins with
  | rule nonempty longest => exact .rule nonempty (stays nonempty longest)
  | quoted isString tag inner nonempty whole longest first =>
    refine .quoted isString tag inner nonempty whole ⟨longest.matched, ?_⟩ ?_
    · exact final_tag (tag_of_reading longest.matched)
    · rw [distanceTo_append] at first ⊢
      exact first

theorem Begins.respelled {found : List Lexeme} (begins : Begins kind token rest)
    (lexes : Lexes rest found) (respelled : Respelled rest others) : Begins kind token others :=
  begins.before fun nonempty longest => longest.respelled nonempty lexes respelled

theorem firstReading_startingWith (c : Char) (text : List Char) :
    firstReading Rule.all (c :: text) = firstReading (startingWith c) (c :: text) := by
  unfold firstReading startingWith
  rw [List.find?_filter]
  congr 2
  funext rule
  cases accepted : rule.pattern.accepts (c :: text) with
  | false => simp
  | true =>
    have derived := matches_derive.mpr (accepts_iff.mp accepted)
    cases rest : rule.pattern.derive c with
    | never =>
      rw [rest] at derived
      exact absurd derived matches_never
    | _ => rfl

/-- No word goes on where a name ends. -/
theorem Begins.not_wordChar (begins : Begins .namedParam token rest)
    (respelled : Respelled rest (c :: others)) : wordChar c = false := by
  cases allowed : wordChar c with
  | false => rfl
  | true =>
    cases begins with
    | quoted impossible _ _ _ _ _ _ => cases impossible
    | rule _ longest =>
      have plain : c ≠ '$' := by
        rintro rfl
        exact absurd allowed (by decide)
      obtain ⟨tail, rfl⟩ := respelled.head_eq plain
      obtain ⟨name, rfl, isWord⟩ := matches_named.mp (named_of_reading longest.matched)
      have member : (⟨.token .namedParam, named⟩ : Rule) ∈ Rule.all := by simp [Rule.all, named]
      refine (longest.not_longer member [c] (by simp) (by simp) ?_).elim
      refine matches_named.mpr ⟨name ++ [c], rfl, ?_⟩
      obtain ⟨d, name, rfl⟩ := List.exists_cons_of_ne_nil (all_wordChar isWord).1
      obtain ⟨begins, words⟩ := matches_word.mp isWord
      exact matches_word.mpr ⟨begins, by simp [words, allowed]⟩

/-- A position stands for a name wherever one stands. -/
theorem Begins.numbered {position : List Char} (begins : Begins .namedParam token rest)
    (respelled : Respelled rest others) (written : Matches positional position) :
    Begins .positionalParam position others := by
  obtain ⟨digits, rfl, nonempty, all⟩ := matches_positional.mp written
  refine .rule (by simp) ⟨?_, ?_⟩
  · rw [firstReading_startingWith, startingWith_dollar, firstReading_cons,
      if_pos (accepts_iff.mpr written)]
  · intro more further starts
    obtain ⟨d, more, rfl⟩ := List.exists_cons_of_ne_nil further
    obtain ⟨tail, rfl⟩ := starts
    have stops := begins.not_wordChar respelled
    refine firstReading_startingWith_eq_none fun rule member matched => ?_
    rw [startingWith_dollar, List.mem_cons, List.mem_singleton] at member
    rcases member with rfl | rfl
    · obtain ⟨word, same, words⟩ := positional_word matched
      cases same
      simp [stops] at words
    · obtain ⟨e, digits, rfl⟩ := List.exists_cons_of_ne_nil nonempty
      rw [List.all_cons, not_isDigit_of_dollarTag matched] at all
      cases all

/-- After a colon and a word there is only one rule left. -/
theorem rule_of_named {name : List Char} (written : Matches word name) {rule : Rule}
    (member : rule ∈ startingWith ':') (matched : rule.pattern.Matches (':' :: name ++ more)) :
    rule = ⟨.token .namedParam, named⟩ := by
  obtain ⟨nonempty, words⟩ := all_wordChar written
  obtain ⟨c, name, rfl⟩ := List.exists_cons_of_ne_nil nonempty
  rw [startingWith_colon] at member
  simp only [List.mem_cons, List.not_mem_nil, or_false] at member
  rcases member with rfl | rfl | rfl
  · have spelled : ':' :: c :: (name ++ more) = [':', ':'] := matches_text.mp matched
    simp only [List.cons.injEq, true_and] at spelled
    rw [List.all_cons, spelled.1] at words
    cases words
  · have spelled : ':' :: c :: (name ++ more) = [':'] := matches_text.mp matched
    cases spelled
  · rfl

/-- So does another name. -/
theorem Begins.renamed {name : List Char} (begins : Begins .namedParam token rest)
    (respelled : Respelled rest others) (written : Matches named name) :
    Begins .namedParam name others := by
  obtain ⟨name, rfl, isWord⟩ := matches_named.mp written
  refine .rule (by simp) ⟨?_, ?_⟩
  · cases read : firstReading Rule.all (':' :: name) with
    | none =>
      have member : (⟨.token .namedParam, named⟩ : Rule) ∈ Rule.all := by simp [Rule.all, named]
      exact absurd read (firstReading_ne_none member written)
    | some reading =>
      obtain ⟨rule, member, rfl, matched⟩ := exists_startingWith read
      rw [rule_of_named isWord member (by rwa [List.append_nil])]
  · intro more further starts
    obtain ⟨d, more, rfl⟩ := List.exists_cons_of_ne_nil further
    obtain ⟨tail, rfl⟩ := starts
    have stops := begins.not_wordChar respelled
    refine firstReading_startingWith_eq_none fun rule member matched => ?_
    rw [rule_of_named isWord member matched] at matched
    obtain ⟨word, same, words⟩ := named_word matched
    cases same
    simp [stops] at words

end Lexer

/-! ## Texts -/

open Pattern in
/-- A lexeme in place of another: the same, or for a name a position or a name. -/
inductive Lexeme.Respells : Lexeme → Lexeme → Prop
  | same (lexeme : Lexeme) : Respells lexeme lexeme
  | numbered {name position : List Char} (written : Matches named name)
      (new : Matches positional position) :
      Respells ⟨.namedParam, String.ofList name⟩ ⟨.positionalParam, String.ofList position⟩
  | renamed {name other : List Char} (written : Matches named name) (new : Matches named other) :
      Respells ⟨.namedParam, String.ofList name⟩ ⟨.namedParam, String.ofList other⟩

/-- The text that lexemes make up. -/
def textOf (lexemes : List Lexeme) : List Char := lexemes.flatMap (·.text.toList)

@[simp] theorem textOf_cons (lexeme : Lexeme) (others : List Lexeme) :
    textOf (lexeme :: others) = lexeme.text.toList ++ textOf others := rfl

theorem Lexes.textOf_eq {text : List Char} {found : List Lexeme} (lexes : Lexes text found) :
    textOf found = text := by
  induction lexes with
  | nil => rfl
  | cons _ _ ih => rw [textOf_cons, ih, String.toList_ofList]

theorem respelled_textOf {found others : List Lexeme}
    (respells : List.Forall₂ Lexeme.Respells found others) :
    Respelled (textOf found) (textOf others) := by
  induction respells with
  | nil => exact .nil
  | cons respells _ ih =>
    rw [textOf_cons, textOf_cons]
    cases respells with
    | same lexeme => exact ih.append_same _
    | numbered written new =>
      rw [String.toList_ofList, String.toList_ofList]
      obtain ⟨name, rfl, isName⟩ := Rule.named_word written
      obtain ⟨digits, rfl, isWord⟩ := Rule.positional_word new
      exact .placeholder isName isWord (Or.inl rfl) ih
    | renamed written new =>
      rw [String.toList_ofList, String.toList_ofList]
      obtain ⟨name, rfl, isName⟩ := Rule.named_word written
      obtain ⟨other, rfl, isWord⟩ := Rule.named_word new
      exact .placeholder isName isWord (Or.inr rfl) ih

/-- A text with placeholders spelled anew is cut into the lexemes spelled anew. -/
theorem Lexes.respelled {text : List Char} {found others : List Lexeme} (lexes : Lexes text found)
    (respells : List.Forall₂ Lexeme.Respells found others) : Lexes (textOf others) others := by
  induction lexes generalizing others with
  | nil =>
    cases respells
    exact .nil
  | @cons kind token rest found begins next ih =>
    cases respells with
    | @cons _ other _ others respells later =>
      have respelled := respelled_textOf later
      rw [next.textOf_eq] at respelled
      have lexed := ih later
      rw [textOf_cons]
      generalize whole : (⟨kind, String.ofList token⟩ : Lexeme) = lexeme at respells
      cases respells with
      | same =>
        subst whole
        rw [String.toList_ofList]
        exact .cons (begins.respelled next respelled) lexed
      | numbered written new =>
        obtain ⟨rfl, _⟩ := Lexeme.mk.inj whole
        rw [String.toList_ofList]
        exact .cons (begins.numbered respelled new) lexed
      | renamed written new =>
        obtain ⟨rfl, _⟩ := Lexeme.mk.inj whole
        rw [String.toList_ofList]
        exact .cons (begins.renamed respelled new) lexed

end AnnotatedSql
