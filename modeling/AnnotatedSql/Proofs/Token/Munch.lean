import AnnotatedSql.Proofs.Token.Quoting

/-!
# Maximal munch

A token is as long as the rules allow. What is spelled like a fixed text has the kind of that text,
although a pattern may match it as well. Strings in dollar quotes are no matches of a rule: they run
from a tag to the next occurrence of it, and a tag that does not occur again begins no token.
-/

namespace AnnotatedSql

namespace Pattern

/-- Whether nothing in the pattern is repeated. -/
def starless : Pattern → Bool
  | never | empty | char _ => true
  | seq p q | alt p q => p.starless && q.starless
  | star _ => false

theorem starless_text (spelling : List Char) : (text spelling).starless = true := by
  fun_induction text spelling with
  | case1 => rfl
  | case2 c => rfl
  | case3 c cs _ ih => exact ih

end Pattern

/-! ## Fixed texts -/

namespace Rule

open Pattern

/-- The fixed texts with their kinds. -/
def literals : List (TokenKind × String) :=
  [(.parenOpen, "("), (.parenClose, ")"), (.bracketOpen, "["), (.bracketClose, "]"),
    (.optionalOpen, "?\x7b"), (.exactOpen, "!\x7b"), (.braceOpen, "\x7b"), (.braceClose, "\x7d"),
    (.comma, ","), (.semicolon, ";"), (.dot, "."), (.star, "*"), (.doubleColon, "::"), (.colon, ":"),
    (.eq, "="), (.notEq, "<>"), (.notEq, "!="), (.lt, "<"), (.ltEq, "<="), (.gt, ">"), (.gtEq, ">="),
    (.minus, "-"), (.newline, "\n"), (.newline, "\r\n")]

/-- All other patterns repeat something. -/
theorem filter_starless : all.filter (·.pattern.starless) =
    literals.map fun (kind, spelling) => fixed kind spelling := rfl

theorem mem_literals {kind : TokenKind} {spelling : String} (member : fixed kind spelling ∈ all) :
    (kind, spelling) ∈ literals := by
  have listed : fixed kind spelling ∈ all.filter (·.pattern.starless) :=
    List.mem_filter.mpr ⟨member, starless_text spelling.toList⟩
  rw [filter_starless] at listed
  obtain ⟨⟨otherKind, other⟩, found, same⟩ := List.mem_map.mp listed
  obtain ⟨sameReading, samePattern⟩ := Rule.mk.inj same
  have spelled : (text spelling.toList).Matches other.toList := by
    rw [← samePattern]
    exact matches_text.mpr rfl
  obtain rfl : otherKind = kind := Reading.token.inj sameReading
  obtain rfl : other = spelling := String.toList_inj.mp (matches_text.mp spelled)
  exact found

end Rule

namespace Lexer

open Pattern Rule

variable {kind : TokenKind} {token rest tag : List Char}

/-- Of the rules that match a fixed text its own comes first. -/
theorem firstReading_fixed {spelling : String} (member : fixed kind spelling ∈ Rule.all) :
    firstReading Rule.all spelling.toList = some (.token kind) := by
  have first : ∀ literal ∈ literals,
      firstReading Rule.all literal.2.toList = some (.token literal.1) := by decide +kernel
  exact first _ (mem_literals member)

/-! ## Tags -/

/-- A text begins with at most one tag. -/
theorem tag_unique {other : List Char} {more further : List Char} (tagged : Matches dollarTag tag)
    (taggedToo : Matches dollarTag other) (same : tag ++ more = other ++ further) : tag = other := by
  obtain ⟨u, rfl, inside⟩ := matches_dollarTag.mp tagged
  obtain ⟨v, rfl, insideToo⟩ := matches_dollarTag.mp taggedToo
  have ends : u ++ '$' :: more = v ++ '$' :: further := by simpa using same
  have alike := congrArg (List.takeWhile (· != '$')) ends
  have passed : ∀ {w : List Char}, Matches word w ∨ w = [] → ∀ c ∈ w, (c != '$') = true :=
    fun insideWord c member => bne_iff_ne.mpr fun closing =>
      not_mem_of_tag insideWord (closing ▸ member)
  rw [List.takeWhile_append_of_pos (passed inside),
    List.takeWhile_append_of_pos (passed insideToo)] at alike
  simp only [bne_self_eq_false, Bool.false_eq_true, not_false_eq_true, List.takeWhile_cons_of_neg,
    List.append_nil] at alike
  rw [alike]

/-- The distance is that to the first occurrence. -/
theorem distanceTo_le {before after : List Char} {distance : Nat}
    (found : distanceTo tag (before ++ tag ++ after) = some distance) : distance ≤ before.length := by
  induction before generalizing distance with
  | nil =>
    have starts : tag <+: [] ++ tag ++ after := by simp
    cases whole : [] ++ tag ++ after with
    | nil =>
      rw [whole, distanceTo] at found
      split at found
      · cases found
        exact Nat.le_refl _
      · cases found
    | cons c text =>
      rw [whole] at found starts
      rw [distanceTo, if_pos (List.isPrefixOf_iff_prefix.mpr starts)] at found
      cases found
      exact Nat.le_refl _
  | cons c before ih =>
    rw [List.cons_append, List.cons_append, distanceTo] at found
    split at found
    · cases found
      exact Nat.zero_le _
    · obtain ⟨later, further, rfl⟩ := Option.map_eq_some_iff.mp found
      exact Nat.succ_le_succ (ih further)

/-- No rule but that of tags gives a token of its own that begins like a tag. -/
theorem Longest.not_tag (longest : Longest Rule.all (.token kind) token rest)
    (nonempty : token ≠ []) {more : List Char} (tagged : Matches dollarTag tag)
    (same : token ++ rest = tag ++ more) : False := by
  obtain ⟨u, rfl, inside⟩ := matches_dollarTag.mp tagged
  obtain ⟨c, token, rfl⟩ := List.exists_cons_of_ne_nil nonempty
  obtain ⟨rfl, further⟩ := List.cons.inj same
  obtain ⟨rule, member, read, matched⟩ := exists_startingWith longest.matched
  rw [startingWith_dollar, List.mem_cons, List.mem_singleton] at member
  rcases member with rfl | rfl
  · obtain ⟨digits, isDigits, some_, decimal⟩ := matches_positional.mp matched
    obtain ⟨-, rfl⟩ := List.cons.inj isDigits
    obtain ⟨d, digits, rfl⟩ := List.exists_cons_of_ne_nil some_
    have digit : d.isDigit = true := List.all_eq_true.mp decimal d List.mem_cons_self
    obtain ⟨second, opened⟩ : ∃ t, '$' :: u ++ ['$'] = '$' :: d :: t := by
      cases u with
      | nil =>
        obtain ⟨rfl, -⟩ := List.cons.inj further
        exact ⟨[], rfl⟩
      | cons e u =>
        obtain ⟨rfl, -⟩ := List.cons.inj further
        exact ⟨_, rfl⟩
    rw [opened] at tagged
    rw [not_isDigit_of_dollarTag tagged] at digit
    cases digit
  · cases read

end Lexer

/-! ## Tokens -/

namespace Lexeme

/-- A string in dollar quotes, which no other string begins with. -/
def IsDollarQuoted (lexeme : Lexeme) : Prop :=
  lexeme.kind = .stringLiteral ∧ lexeme.text.toList.head? = some '$'

/-- A rule of its kind matches the lexeme, no rule matches more of the text that it and `rest` are, and
no fixed text of another kind is spelled so. -/
structure IsLongest (lexeme : Lexeme) (rest : List Char) : Prop where
  matched : ∃ rule ∈ Rule.all, rule.reading = .token lexeme.kind ∧
    rule.pattern.Matches lexeme.text.toList
  longest : ∀ rule ∈ Rule.all, ∀ longer, longer <+: lexeme.text.toList ++ rest →
    rule.pattern.Matches longer → longer.length ≤ lexeme.text.toList.length
  literal : ∀ kind spelling, Rule.fixed kind spelling ∈ Rule.all →
    (Rule.fixed kind spelling).pattern.Matches lexeme.text.toList → lexeme.kind = kind

/-- The lexeme runs from a tag to the first place in the text after it where the tag stands again. -/
def IsTagged (lexeme : Lexeme) (rest : List Char) : Prop :=
  ∃ tag inner, lexeme.text.toList = tag ++ inner ++ tag ∧ Rule.dollarTag.Matches tag ∧
    ∀ before after, inner ++ tag ++ rest = before ++ tag ++ after → inner.length ≤ before.length

variable {lexeme : Lexeme} {rest : List Char}

/-- What a text begins with is a string in dollar quotes or as long as the rules allow. -/
theorem isLongest_or_isTagged (begins : Lexer.Begins lexeme.kind lexeme.text.toList rest) :
    (¬lexeme.IsDollarQuoted → lexeme.IsLongest rest) ∧
      (lexeme.IsDollarQuoted → lexeme.IsTagged rest) := by
  rcases begins with ⟨nonempty, longest⟩ | ⟨isString, tag, inner, nonempty, whole, longest, first⟩
  · refine ⟨fun _ => ⟨Lexer.exists_rule longest.matched, ?_, ?_⟩, fun ⟨isString, dollar⟩ => ?_⟩
    · intro rule member longer ⟨last, whole⟩ matched
      by_contra exceeds
      obtain ⟨more, rfl⟩ : lexeme.text.toList <+: longer :=
        List.prefix_of_prefix_length_le (List.prefix_append _ rest) ⟨last, whole⟩ (by omega)
      rw [List.append_assoc] at whole
      refine longest.not_longer member more ?_ ⟨last, List.append_cancel_left whole⟩ matched
      rintro rfl
      exact exceeds (by simp)
    · intro kind spelling member matched
      have read := Lexer.firstReading_fixed member
      rw [← Pattern.matches_text.mp matched, longest.matched] at read
      exact Reading.token.inj (Option.some.inj read)
    · -- no rule for strings matches what begins with a dollar sign
      obtain ⟨text, starts⟩ := List.head?_eq_some_iff.mp dollar
      rw [starts, isString] at longest
      obtain ⟨rule, member, read, _⟩ := Lexer.exists_startingWith longest.matched
      rw [Lexer.startingWith_dollar, List.mem_cons, List.mem_singleton] at member
      rcases member with rfl | rfl <;> cases read
  · have tagged := Lexer.tag_of_reading longest.matched
    have dollar : lexeme.text.toList.head? = some '$' := by
      obtain ⟨u, rfl, _⟩ := Rule.matches_dollarTag.mp tagged
      rw [whole]
      rfl
    refine ⟨fun other => absurd ⟨isString, dollar⟩ other,
      fun _ => ⟨tag, inner, whole, tagged, ?_⟩⟩
    intro before after same
    rw [same] at first
    exact Lexer.distanceTo_le first

/-- A tag that does not occur again begins no token. -/
theorem not_begins_of_unclosed {kind : TokenKind} {token tag more : List Char}
    (begins : Lexer.Begins kind token rest) (tagged : Rule.dollarTag.Matches tag)
    (unclosed : ¬tag <:+: more) (same : token ++ rest = tag ++ more) : False := by
  rcases begins with ⟨nonempty, longest⟩ | ⟨_, opened, inner, _, whole, longest, _⟩
  · exact longest.not_tag nonempty tagged same
  · rw [whole, List.append_assoc, List.append_assoc] at same
    obtain rfl := Lexer.tag_unique (Lexer.tag_of_reading longest.matched) tagged same
    refine unclosed ⟨inner, rest, ?_⟩
    rw [List.append_assoc]
    exact List.append_cancel_left same

end Lexeme

/-- Where a token stands in its text, and what follows it. -/
theorem begins_of_mem_lexAt {offset : Nat} {text : List Char} {token : Token}
    (member : token ∈ lexAt offset text) (sound : token.kind ≠ .garbage) :
    ∃ before rest, text = before ++ token.text.toList ++ rest ∧
      token.span.start = offset + byteLength before ∧
      Lexer.Begins token.kind token.text.toList rest := by
  obtain ⟨first, last, split⟩ := List.append_of_mem member
  obtain ⟨before, lexed, starts, _⟩ := place_split split
  obtain ⟨rest, _, begins, whole⟩ := Lexer.lexemes_after lexed sound
  exact ⟨_, rest, whole, starts, begins⟩

/-- A token that is no garbage and not in dollar quotes matches a rule of its kind; no rule matches more
of the text from there on, and a fixed text has its own kind. A string in dollar quotes ends at the
first place where its tag stands again. Where a tag stands that does not follow again, there is no
token. -/
theorem lexAt_longest (offset : Nat) (text : List Char) :
    (∀ token ∈ lexAt offset text, token.kind ≠ .garbage →
      ∃ before rest, text = before ++ token.text.toList ++ rest ∧
        token.span.start = offset + byteLength before ∧
        (¬token.IsDollarQuoted → token.IsLongest rest) ∧
        (token.IsDollarQuoted → token.IsTagged rest)) ∧
    ∀ token ∈ lexAt offset text, ∀ before tag rest, text = before ++ tag ++ rest →
      token.span.start = offset + byteLength before → Rule.dollarTag.Matches tag →
      ¬tag <:+: rest → token.kind = .garbage := by
  refine ⟨fun token member sound => ?_, fun token member before tag rest whole starts tagged unclosed => ?_⟩
  · obtain ⟨before, rest, whole, starts, begins⟩ := begins_of_mem_lexAt member sound
    exact ⟨before, rest, whole, starts, Lexeme.isLongest_or_isTagged begins⟩
  · by_contra sound
    obtain ⟨skipped, others, wholeToo, startsToo, begins⟩ := begins_of_mem_lexAt member sound
    rw [List.append_assoc] at whole wholeToo
    have sameStart : byteLength skipped = byteLength before := by omega
    have same : token.text.toList ++ others = tag ++ rest := by
      rw [← dropBytes_append skipped (_ ++ others), ← wholeToo, sameStart, whole, dropBytes_append]
    exact Lexeme.not_begins_of_unclosed begins tagged unclosed same

/-- Of the tags here the first is closed by the next of the same name, and the last by none. -/
example : (lexAt 0 "$a$ $1 $$ $a$::x:y -- z\r\n$b$".toList).map (fun token => (token.kind, token.text)) =
    [(.stringLiteral, "$a$ $1 $$ $a$"), (.doubleColon, "::"), (.ident, "x"), (.namedParam, ":y"),
      (.whitespace, " "), (.lineComment, "-- z\r"), (.newline, "\n"), (.garbage, "$b$")] := by
  decide +kernel

end AnnotatedSql
