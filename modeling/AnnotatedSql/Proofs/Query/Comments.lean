import AnnotatedSql.Proofs.Query.Extent
import AnnotatedSql.Proofs.Query.Rewriting
import AnnotatedSql.Proofs.Text.Cutting
import AnnotatedSql.Proofs.Token.Replacing

/-!
# Comments in a query

A comment that begins where no token goes on over its start stands apart from all that carries
meaning, and a space in its place changes nothing in the parameters. An operator that ends with a
slash takes that of `/*` as well, and so opens the comment.
-/

namespace AnnotatedSql

namespace Span

/-- The span goes on over the position. -/
def Straddles (span : Span) (position : Nat) : Prop := span.start < position ∧ position < span.stop

instance (span : Span) (position : Nat) : Decidable (span.Straddles position) :=
  inferInstanceAs (Decidable (_ ∧ _))

/-- The spans share no text. -/
def Apart (a b : Span) : Prop := a.stop ≤ b.start ∨ b.stop ≤ a.start

instance (a b : Span) : Decidable (a.Apart b) := inferInstanceAs (Decidable (_ ∨ _))

end Span

/-- Whether what stands in a token of the kind is no code: in strings, quoted identifiers and
comments. -/
def TokenKind.encloses : TokenKind → Bool
  | stringLiteral | quotedIdent | lineComment | blockComment => true
  | _ => false

theorem place_append (offset : Nat) (first second : List Lexeme) :
    place offset (first ++ second) = place offset first ++
      place (offset + byteLength (first.flatMap (·.text.toList))) second := by
  induction first generalizing offset with
  | nil => rfl
  | cons lexeme first ih =>
    rw [List.cons_append, place, place, ih, List.cons_append, List.flatMap_cons, byteLength_append,
      Nat.add_assoc]

namespace Lexer

open Pattern Rule

variable {kind : TokenKind} {token before comment rest fault text : List Char}
  {pieces : List Piece} {c : Char}

/-! ## Tokens that go on over a slash or a dash -/

theorem slash_readings :
    ((Rule.all.filter fun rule => !(rule.pattern.avoids '/' && rule.pattern.avoids '-')).map
      Rule.reading) =
    [.token .minus, .token .operator, .token .quotedIdent, .token .stringLiteral,
      .token .lineComment, .token .blockComment] := rfl

/-- What goes on over a slash or a dash: an operator, quoted text or a comment. -/
theorem Begins.kind_of_mem (begins : Begins kind (c :: token) rest)
    (member : '/' ∈ token ∨ '-' ∈ token) : kind = .operator ∨ kind.encloses = true := by
  cases begins with
  | quoted isString _ _ _ _ _ _ =>
    right
    rw [isString]
    rfl
  | rule _ longest =>
    obtain ⟨rule, listed, read, matched⟩ := exists_rule longest.matched
    have takes : rule.reading ∈ ((Rule.all.filter fun rule =>
        !(rule.pattern.avoids '/' && rule.pattern.avoids '-')).map Rule.reading) := by
      refine List.mem_map_of_mem (List.mem_filter.mpr ⟨listed, ?_⟩)
      rw [Bool.not_eq_true', Bool.and_eq_false_iff]
      refine member.imp (fun slash => ?_) fun dash => ?_
      · cases avoided : rule.pattern.avoids '/' with
        | false => rfl
        | true => exact absurd (List.mem_cons_of_mem c slash) (not_mem_of_avoids matched avoided)
      · cases avoided : rule.pattern.avoids '-' with
        | false => rfl
        | true => exact absurd (List.mem_cons_of_mem c dash) (not_mem_of_avoids matched avoided)
    rw [slash_readings, read] at takes
    simp only [List.mem_cons, Reading.token.injEq, List.not_mem_nil, or_false] at takes
    rcases takes with rfl | same | same | same | same | same
    · have only : Rule.all.filter (·.reading = .token .minus) = [Rule.fixed .minus "-"] := rfl
      have whole := matches_text.mp (matches_of_only only longest.matched)
      obtain ⟨_, rfl⟩ := List.cons.inj whole
      simp at member
    all_goals simp [same, TokenKind.encloses]

/-! ## Places of pieces -/

theorem join_garbage (nonempty : fault ≠ []) (pieces : List Piece) :
    ∃ more others, join fault pieces = ⟨.garbage, String.ofList (fault ++ more)⟩ :: others := by
  induction pieces generalizing fault with
  | nil => exact ⟨[], [], by simp [join, flush, nonempty]⟩
  | cons piece pieces ih =>
    rcases piece with ⟨_ | kind, text⟩
    · have grown : fault ++ text ≠ [] := by simp [nonempty]
      obtain ⟨more, others, joined⟩ := ih grown
      exact ⟨text ++ more, others, by rw [join, joined, List.append_assoc]⟩
    · refine ⟨[], ⟨kind, String.ofList text⟩ :: join [] pieces, ?_⟩
      simp [join, flush, nonempty]

theorem place_join_token (offset : Nat) (fault : List Char) (kind : TokenKind) (token : List Char)
    (pieces : List Piece) :
    place offset (join fault (⟨some kind, token⟩ :: pieces)) =
      place offset (flush fault) ++
        ⟨⟨kind, String.ofList token⟩,
          ⟨offset + byteLength fault, offset + byteLength fault + byteLength token⟩⟩ ::
        place (offset + byteLength fault + byteLength token) (join [] pieces) := by
  rw [join, place_append, flush_flatten, place, String.toList_ofList]

/-- The first piece of a text ends before a place in it or goes on over it. -/
theorem piece_cases (whole : token ++ text = before ++ c :: rest) :
    before = [] ∨ (∃ left, before = token ++ left ∧ text = left ++ c :: rest) ∨
      ∃ d left right, before = d :: left ∧ token = d :: (left ++ c :: right) := by
  rcases prefix_cases ⟨text, whole⟩ with ⟨left, rfl⟩ | ⟨right, rfl, _⟩
  · rw [List.append_assoc] at whole
    exact Or.inr (Or.inl ⟨left, rfl, List.append_cancel_left whole⟩)
  · cases before with
    | nil => exact Or.inl rfl
    | cons d left => exact Or.inr (Or.inr ⟨d, left, right, rfl, rfl⟩)

/-- A text is cut before a comment, or what is cut there goes on over its start: an operator,
something that encloses it, or a fault. -/
theorem leads_or_straddles (cuts : Cuts text pieces) (whole : text = before ++ c :: rest)
    (begins : c = '/' ∨ c = '-') : Leads (c :: rest) before ∨ ∀ offset fault,
      ∃ token ∈ place offset (join fault pieces),
        token.span.Straddles (offset + byteLength fault + byteLength before) ∧
          (token.kind = .operator ∨ token.kind = .garbage ∨ token.kind.encloses = true) := by
  have inside : ∀ (d : Char) (left right : List Char),
      0 < byteLength (d :: left) ∧
        byteLength (d :: left) < byteLength (d :: (left ++ c :: right)) := by
    intro d left right
    have first := byteLength_pos (List.cons_ne_nil d left)
    have second := byteLength_pos (List.cons_ne_nil c right)
    rw [← List.cons_append, byteLength_append]
    omega
  induction cuts generalizing before with
  | nil => simp at whole
  | @token kind token text pieces tokenBegins _ ih =>
    rcases piece_cases whole with rfl | ⟨left, rfl, rfl⟩ | ⟨d, left, right, rfl, rfl⟩
    · exact Or.inl .nil
    · refine (ih rfl).imp (.token tokenBegins) fun straddles offset fault => ?_
      obtain ⟨found, listed, covers, kinds⟩ :=
        straddles (offset + byteLength fault + byteLength token) []
      refine ⟨found, ?_, ?_, kinds⟩
      · rw [place_join_token]
        exact List.mem_append_right _ (List.mem_cons_of_mem _ listed)
      · rwa [byteLength_append, ← Nat.add_assoc]
    · refine Or.inr fun offset fault => ?_
      have within := inside d left right
      rw [place_join_token]
      refine ⟨_, List.mem_append_right _ List.mem_cons_self, ⟨?_, ?_⟩, ?_⟩
      · dsimp only
        omega
      · dsimp only
        omega
      · have kinds := tokenBegins.kind_of_mem (begins.imp (fun same => by simp [same])
          fun same => by simp [same])
        exact kinds.imp_right Or.inr
  | @fault more text pieces fails _ ih =>
    rcases piece_cases whole with rfl | ⟨left, rfl, rfl⟩ | ⟨d, left, right, rfl, rfl⟩
    · exact Or.inl .nil
    · refine (ih rfl).imp (.fault fails) fun straddles offset fault => ?_
      obtain ⟨found, listed, covers, kinds⟩ := straddles offset (fault ++ more)
      refine ⟨found, listed, ?_, kinds⟩
      simpa only [byteLength_append, Nat.add_assoc] using covers
    · refine Or.inr fun offset fault => ?_
      have within := inside d left right
      have grown : fault ++ d :: (left ++ c :: right) ≠ [] := by simp
      obtain ⟨further, others, joined⟩ := join_garbage grown pieces
      rw [join, joined, place, String.toList_ofList]
      refine ⟨_, List.mem_cons_self, ⟨?_, ?_⟩, Or.inr (Or.inl rfl)⟩
      · dsimp only
        omega
      · dsimp only
        rw [byteLength_append, byteLength_append]
        omega

/-- Where a text is cut before a token, that token is one of its lexemes. -/
theorem Leads.exists_lexemes (leads : Leads (token ++ rest) before)
    (begins : Begins kind token rest) : ∃ pieces, Cuts (before ++ (token ++ rest)) pieces ∧
      ∀ fault, ∃ first second, join fault pieces = first ++ ⟨kind, String.ofList token⟩ :: second ∧
        first.flatMap (·.text.toList) = fault ++ before := by
  induction leads with
  | nil =>
    obtain ⟨pieces, cuts⟩ := exists_cuts rest
    rw [List.nil_append]
    refine ⟨_, .token begins cuts, fun fault => ⟨flush fault, join [] pieces, rfl, ?_⟩⟩
    rw [flush_flatten, List.append_nil]
  | @token other earlier before earlierBegins _ ih =>
    obtain ⟨pieces, cuts, parts⟩ := ih
    rw [List.append_assoc]
    refine ⟨_, .token earlierBegins cuts, fun fault => ?_⟩
    obtain ⟨first, second, joined, flat⟩ := parts []
    refine ⟨flush fault ++ ⟨other, String.ofList earlier⟩ :: first, second, ?_, ?_⟩
    · rw [join, joined, List.append_assoc, List.cons_append]
    · rw [List.flatMap_append, List.flatMap_cons, flush_flatten, flat, String.toList_ofList,
        List.nil_append]
  | @fault more before fails _ ih =>
    obtain ⟨pieces, cuts, parts⟩ := ih
    rw [List.append_assoc]
    refine ⟨_, .fault fails cuts, fun fault => ?_⟩
    obtain ⟨first, second, joined, flat⟩ := parts (fault ++ more)
    exact ⟨first, second, by rw [join, joined], by rw [flat, List.append_assoc]⟩

/-- Where a text is cut before a comment, all that carries meaning stands apart from it. -/
theorem Leads.apart (commented : Comment rest comment) (leads : Leads (comment ++ rest) before)
    (offset : Nat) {token : Token}
    (listed : token ∈ significantAt offset (before ++ (comment ++ rest))) :
    token.span.Apart ⟨offset + byteLength before,
      offset + byteLength before + byteLength comment⟩ := by
  obtain ⟨kind, trivia, begins⟩ := Begins.ofComment commented
  obtain ⟨pieces, cuts, parts⟩ := leads.exists_lexemes begins
  obtain ⟨first, second, joined, flat⟩ := parts []
  obtain ⟨placed, meaningful⟩ := List.mem_filter.mp listed
  rw [lexAt, cuts.lexemes_eq, joined, place_append, flat, List.nil_append, place,
    String.toList_ofList, List.mem_append, List.mem_cons] at placed
  rcases placed with earlier | rfl | later
  · have inside := (place_inside earlier).stopBefore
    rw [flat, List.nil_append] at inside
    exact Or.inl inside
  · simp [trivia] at meaningful
  · exact Or.inr (place_inside later).startAfter

end Lexer

namespace Query

variable {query other : Query} {before comment after : List Char}

/-- The place of a part of the body, `before` standing before it. -/
def partSpan (query : Query) (before part : List Char) : Span :=
  ⟨query.bodySpan.start + byteLength before,
    query.bodySpan.start + byteLength before + byteLength part⟩

/-- A query with a comment cut out of its body binds the same. -/
theorem bind_replaced (commented : Comment after comment)
    (leads : Lexer.Leads (comment ++ after) before)
    (written : query.body = before ++ (comment ++ after)) (header : other.header = query.header)
    (replaced : other.body = before ++ ' ' :: after) : other.bind = query.bind := by
  have same : significant other.body = significant query.body := by
    rw [replaced, written]
    exact Lexer.meaningfulAfter_replaced commented leads
  unfold bind descriptor
  rw [statement_eq, statement_eq, same, header]

theorem reports_kinds (query : Query) (findings : List Finding) :
    (query.reports findings).map Report.kind = findings.map Finding.kind := by
  rw [reports, List.map_map]
  rfl

/-- A comment that is not part of quoted text or of another comment. All that carries meaning stands
apart from it exactly when no operator and no garbage goes on over its start; and then the query
with a space in its place has the same parameters, or none either, and reports of the same kinds. -/
theorem bind_comment (written : query.body = before ++ (comment ++ after))
    (commented : Comment after comment)
    (outside : ∀ token ∈ lexAt query.bodySpan.start query.body,
      token.span.Straddles (query.partSpan before comment).start → token.kind.encloses = false)
    (header : other.header = query.header) (replaced : other.body = before ++ ' ' :: after) :
    ((∀ token ∈ query.read.tokens, token.span.Apart (query.partSpan before comment)) ↔
      ∀ token ∈ lexAt query.bodySpan.start query.body,
        token.span.Straddles (query.partSpan before comment).start →
          token.kind ≠ .operator ∧ token.kind ≠ .garbage) ∧
    ((∀ token ∈ query.read.tokens, token.span.Apart (query.partSpan before comment)) →
      other.bind = query.bind ∧
        (other.reports other.bind.findings).map Report.kind =
          (query.reports query.bind.findings).map Report.kind) := by
  have significant_mem : ∀ {token}, token ∈ query.read.tokens ↔
      token ∈ significantAt query.bodySpan.start query.body := List.mem_toArray
  have leads : (∀ token ∈ lexAt query.bodySpan.start query.body,
      token.span.Straddles (query.partSpan before comment).start →
        token.kind ≠ .operator ∧ token.kind ≠ .garbage) →
      Lexer.Leads (comment ++ after) before := by
    intro free
    obtain ⟨c, tail, rfl, begins⟩ := commented.starts
    obtain ⟨pieces, cuts⟩ := Lexer.exists_cuts query.body
    refine (Lexer.leads_or_straddles cuts written begins).resolve_right fun straddles => ?_
    obtain ⟨token, listed, covers, kinds⟩ := straddles query.bodySpan.start []
    rw [← cuts.lexemes_eq] at listed
    rcases kinds with operator | garbage | encloses
    · exact (free token listed covers).1 operator
    · exact (free token listed covers).2 garbage
    · exact absurd encloses (by simp [outside token listed covers])
  have free : (∀ token ∈ query.read.tokens, token.span.Apart (query.partSpan before comment)) →
      ∀ token ∈ lexAt query.bodySpan.start query.body,
        token.span.Straddles (query.partSpan before comment).start →
          token.kind ≠ .operator ∧ token.kind ≠ .garbage := by
    intro apart token listed covers
    have meaningless : token.kind.isTrivia = true := by
      by_contra meaningful
      have member := significant_mem.mpr
        (List.mem_filter.mpr ⟨listed, by simpa using meaningful⟩)
      obtain ⟨c, tail, rfl, _⟩ := commented.starts
      have positive := byteLength_pos (List.cons_ne_nil c tail)
      have stands := apart token member
      simp only [Span.Apart, Span.Straddles, partSpan] at stands covers
      omega
    constructor <;> intro kind <;> simp [kind, TokenKind.isTrivia] at meaningless
  refine ⟨⟨free, fun clear token member => ?_⟩, fun apart => ?_⟩
  · have listed := significant_mem.mp member
    rw [written] at listed
    exact (leads clear).apart commented _ listed
  · have same := bind_replaced commented (leads (free apart)) written header replaced
    exact ⟨same, by rw [reports_kinds, reports_kinds, same]⟩

/-- Strings with a comment in them, a minus sign right before one and a placeholder right after. -/
theorem bind_comment_after_minus :
    let before := "SELECT $t$--$t$,'it''s'-".toList
    let comment := "/*:x'*/".toList
    let query : Query := ⟨0, ⟨⟨"q", .implicit, .many, false⟩, ⟨4, 5⟩, [], none⟩, ⟨3, 5⟩,
      before ++ (comment ++ ":y".toList), ⟨6, 39⟩⟩
    let other : Query := { query with body := before ++ ' ' :: ":y".toList }
    Comment ":y".toList comment ∧
      (∀ token ∈ lexAt query.bodySpan.start query.body,
        token.span.Straddles (query.partSpan before comment).start → token.kind.encloses = false) ∧
      (∀ token ∈ query.read.tokens, token.span.Apart (query.partSpan before comment)) ∧
      query.bind.value.map (List.map Parameter.key) = some [.named "y"] ∧ other.bind = query.bind ∧
      (other.reports other.bind.findings).map Report.kind =
        (query.reports query.bind.findings).map Report.kind := by
  intro before comment query other
  have commented : Comment ":y".toList comment :=
    .block (by decide : ¬['*', '/'] <:+: ":x'".toList ++ ['*'])
  have outside : ∀ token ∈ lexAt query.bodySpan.start query.body,
      token.span.Straddles (query.partSpan before comment).start →
        token.kind.encloses = false := by decide +kernel
  have free : ∀ token ∈ lexAt query.bodySpan.start query.body,
      token.span.Straddles (query.partSpan before comment).start →
        token.kind ≠ .operator ∧ token.kind ≠ .garbage := by decide +kernel
  have whole := @bind_comment query other _ _ _ rfl commented outside rfl rfl
  exact ⟨commented, outside, whole.1.mpr free, by decide +kernel, whole.2 (whole.1.mpr free)⟩

/-- An operator takes the slash of `/*` as well. What stands in the comment is read then: the query
has a parameter, and it has none with a space in place of the comment. -/
theorem operator_opens_comment :
    let before := "SELECT 1 +".toList
    let comment := "/* :x */".toList
    let query : Query := ⟨0, ⟨⟨"q", .implicit, .many, false⟩, ⟨4, 5⟩, [], none⟩, ⟨3, 5⟩,
      before ++ (comment ++ " 2;\n".toList), ⟨6, 28⟩⟩
    let other : Query := { query with body := before ++ ' ' :: " 2;\n".toList }
    (parseModule 0 "" "--! q\nSELECT 1 +/* :x */ 2;\n".toList).queries = [query] ∧
      Comment " 2;\n".toList comment ∧
      (∀ token ∈ lexAt query.bodySpan.start query.body,
        token.span.Straddles (query.partSpan before comment).start → token.kind.encloses = false) ∧
      ¬(∀ token ∈ query.read.tokens, token.span.Apart (query.partSpan before comment)) ∧
      query.bind.value.map (List.map Parameter.key) = some [.named "x"] ∧
      other.bind.value.map (List.map Parameter.key) = some [] := by
  intro before comment query other
  have commented : Comment " 2;\n".toList comment :=
    .block (by decide : ¬['*', '/'] <:+: " :x ".toList ++ ['*'])
  refine ⟨by decide +kernel, commented, by decide +kernel, by decide +kernel, ?_, ?_⟩
  · decide +kernel
  · decide +kernel

end Query

end AnnotatedSql
