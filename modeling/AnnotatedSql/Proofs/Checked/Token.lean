import AnnotatedSql.Proofs.Checked.Basic
import AnnotatedSql.Proofs.Token.Tiling

/-!
# Tokens and their texts

Placing tokens takes sums of 32 bits, and their texts are cut out of the text they come from. Both
are safe in a text that ends before the greatest position: each token holds its own spelling, and
what is quoted has a quote at either end.
-/

namespace AnnotatedSql

/-! ## Pieces -/

namespace Checked

/-- The kind and the length of the piece a text begins with. What a tag quotes is passed over by
bytes, its closing tag included. -/
def step (text : List Char) : Checked (Option TokenKind × Nat) :=
  match (Lexer.scanFrom Rule.all 0 none text).best with
  | some (.openingTag, length) =>
    let tag := text.take length
    let rest := text.drop length
    match Lexer.distanceTo tag rest with
    | some distance => do
      let (passed, _) ← splitAt (byteLength (rest.take distance) + byteLength tag) rest
      pure (some .stringLiteral, length + passed.length)
    | none => pure (none, length)
  | _ => pure (Lexer.step text)

/-- Cuts a text into at most `fuel` pieces. -/
def pieces : Nat → List Char → Checked (List Lexer.Piece)
  | 0, _ => pure []
  | _ + 1, [] => pure []
  | fuel + 1, c :: text => do
    let (kind, length) ← step (c :: text)
    let others ← pieces fuel ((c :: text).drop length)
    pure (⟨kind, (c :: text).take length⟩ :: others)

/-- The lexemes of a text. -/
def lexemes (text : List Char) : Checked (List Lexeme) := do
  let pieces ← pieces text.length text
  pure (Lexer.join [] pieces)

theorem step_eq (text : List Char) : step text = pure (Lexer.step text) := by
  unfold step
  split
  next length best =>
    obtain ⟨tag, others, _, rfl, rfl, _⟩ := Lexer.scan_best.mp best
    unfold Lexer.step
    dsimp only
    rw [best]
    dsimp only
    rw [List.take_left, List.drop_left]
    cases found : Lexer.distanceTo tag others with
    | none => rfl
    | some distance =>
      obtain ⟨inner, rest, rfl, rfl⟩ := Lexer.distanceTo_some found
      have passed := splitAt_append (inner ++ tag) rest
      dsimp only
      rw [List.append_assoc, List.take_left, ← byteLength_append, ← List.append_assoc, passed,
        pure_bind]
      simp [Nat.add_assoc]
  · rfl

theorem pieces_eq (fuel : Nat) (text : List Char) : pieces fuel text = pure (Lexer.cut fuel text) := by
  induction fuel generalizing text with
  | zero => rfl
  | succ fuel ih =>
    cases text with
    | nil => rfl
    | cons c text =>
      unfold pieces Lexer.cut
      rw [step_eq, pure_bind]
      dsimp only
      rw [ih, pure_bind]

theorem lexemes_eq (text : List Char) : lexemes text = pure (AnnotatedSql.lexemes text) := by
  unfold lexemes
  rw [pieces_eq, pure_bind]
  rfl

end Checked

/-! ## Places -/

namespace Checked

/-- The span of the bytes from `start` to `stop` of a text that begins at `offset`. -/
def placeSpan (offset start stop : Nat) : Checked Span := do
  let start ← narrow start
  let stop ← narrow stop
  let inText ← span start stop
  let first ← narrow (inText.start + offset)
  let last ← narrow (inText.stop + offset)
  pure ⟨first, last⟩

/-- Puts lexemes at their places, the first `position` bytes into a text that begins at `offset`. -/
def place (offset position : Nat) : List Lexeme → Checked (List Token)
  | [] => pure []
  | lexeme :: rest => do
    let stop := position + byteLength lexeme.text.toList
    let span ← placeSpan offset position stop
    let others ← place offset stop rest
    pure (⟨lexeme, span⟩ :: others)

/-- The tokens that carry meaning in a text that begins at `offset`. -/
def significantAt (offset : Nat) (text : List Char) : Checked (List Token) := do
  let lexemes ← lexemes text
  let tokens ← place offset 0 lexemes
  pure (tokens.filter fun token => !token.kind.isTrivia)

/-- A word without its quotes, and a placeholder without the sign it begins with. -/
def bare (kind : TokenKind) (text : List Char) : Checked (List Char) :=
  match kind with
  | .quotedIdent => do
    let closing ← sub (byteLength text) 1
    cut text 1 closing
  | .positionalParam | .namedParam => cut text 1 (byteLength text)
  | _ => pure text

/-- Reads the spelling of a token from the text it comes from, which begins at `base`. -/
def spell (base : Nat) (text : List Char) (token : Token) : Checked Token := do
  let spelling ← slice base text token.span
  let _ ← bare token.kind spelling
  pure ⟨⟨token.kind, String.ofList spelling⟩, token.span⟩

theorem placeSpan_eq {offset start stop : Nat} (ordered : start ≤ stop)
    (fits : offset + stop < UInt32.size) :
    placeSpan offset start stop = pure ⟨offset + start, offset + stop⟩ := by
  unfold placeSpan
  rw [narrow_eq (by omega), pure_bind, narrow_eq (by omega), pure_bind, span_eq ordered, pure_bind]
  dsimp only
  rw [narrow_eq (by omega), pure_bind, narrow_eq (by omega), pure_bind, Nat.add_comm start,
    Nat.add_comm stop]

theorem place_eq {offset position : Nat} {lexemes : List Lexeme}
    (fits : offset + position + byteLength (lexemes.flatMap (·.text.toList)) < UInt32.size) :
    place offset position lexemes = pure (AnnotatedSql.place (offset + position) lexemes) := by
  induction lexemes generalizing position with
  | nil => rfl
  | cons lexeme rest ih =>
    rw [List.flatMap_cons, byteLength_append] at fits
    have others := @ih (position + byteLength lexeme.text.toList) (by omega)
    unfold place
    dsimp only
    rw [placeSpan_eq (Nat.le_add_right _ _) (by omega), pure_bind, others, pure_bind, ← Nat.add_assoc]
    rfl

theorem significantAt_eq {offset : Nat} {text : List Char}
    (fits : offset + byteLength text < UInt32.size) :
    significantAt offset text = pure (AnnotatedSql.significantAt offset text) := by
  have placed : place offset 0 (AnnotatedSql.lexemes text) = pure (lexAt offset text) :=
    place_eq (by rwa [lexemes_flatten])
  unfold significantAt
  rw [lexemes_eq, pure_bind, placed, pure_bind]
  rfl

end Checked

/-! ## Spellings -/

/-- There are no more lexemes than bytes. -/
theorem lexemes_length_le (text : List Char) : (lexemes text).length ≤ byteLength text := by
  have nonempty : ∀ lexeme ∈ lexemes text, lexeme.text.toList ≠ [] := fun lexeme member =>
    Lexer.text_ne_nil_of_mem_join (fun _ => Lexer.piece_nonempty) member
  conv => rhs; rw [← lexemes_flatten text]
  generalize lexemes text = found at nonempty
  induction found with
  | nil => exact Nat.le_refl _
  | cons lexeme rest ih =>
    have positive := byteLength_pos (nonempty lexeme List.mem_cons_self)
    have others := ih fun other member => nonempty other (List.mem_cons_of_mem _ member)
    rw [List.length_cons, List.flatMap_cons, byteLength_append]
    omega

theorem significantAt_length_le (offset : Nat) (text : List Char) :
    (significantAt offset text).length ≤ byteLength text := by
  have placed := congrArg List.length (place_lexeme offset (lexemes text))
  rw [List.length_map] at placed
  have kept : (significantAt offset text).length ≤ (lexAt offset text).length :=
    List.length_filter_le _ _
  exact Nat.le_trans kept (Nat.le_trans (Nat.le_of_eq placed) (lexemes_length_le text))

/-- A token holds its own spelling in the text it comes from. -/
theorem significantAt_holds {offset : Nat} {text : List Char} {token : Token}
    (member : token ∈ significantAt offset text) :
    token.span.Holds offset text token.text.toList := by
  have holds := place_holds (List.mem_filter.mp member).1
  rwa [lexemes_flatten] at holds

/-- What a closing quote ends has that quote at its end. -/
theorem Rule.ends_of_closesQuote {quote : Char} {pending : Bool} {text : List Char}
    (closed : closesQuote quote pending text = true) :
    (text = [] ∧ pending = true) ∨ ∃ inner, text = inner ++ [quote] := by
  induction text generalizing pending with
  | nil => exact Or.inl ⟨rfl, closed⟩
  | cons c text ih =>
    unfold closesQuote at closed
    split at closed
    next same =>
      rw [eq_of_beq same]
      rcases ih closed with ⟨rfl, _⟩ | ⟨inner, rfl⟩
      · exact Or.inr ⟨[], rfl⟩
      · exact Or.inr ⟨quote :: inner, rfl⟩
    · rw [Bool.and_eq_true] at closed
      rcases ih closed.2 with ⟨_, impossible⟩ | ⟨inner, rfl⟩
      · cases impossible
      · exact Or.inr ⟨c :: inner, rfl⟩

namespace Checked

variable {text : List Char} {lexeme : Lexeme}

/-- What follows a sign of one byte. -/
theorem cut_sign {c : Char} (narrow : c.utf8Size = 1) (rest : List Char) :
    cut (c :: rest) 1 (byteLength (c :: rest)) = pure rest := by
  have whole := cut_append [c] rest []
  simpa [narrow] using whole

/-- Words have their quotes and placeholders their signs. -/
theorem bare_safe (member : lexeme ∈ AnnotatedSql.lexemes text) :
    ∃ inner, bare lexeme.kind lexeme.text.toList = pure inner := by
  have spelled : ∀ rule : Rule, lexeme.kind ≠ .garbage → lexeme.kind ≠ .stringLiteral →
      Rule.all.filter (·.reading = .token lexeme.kind) = [rule] →
      rule.pattern.Matches lexeme.text.toList :=
    fun rule sound noString only => Lexer.matches_of_mem_lexemes member sound noString only
  unfold bare
  split
  next kind =>
    rw [kind] at spelled
    have matched := spelled ⟨.token .quotedIdent, Rule.quoted '"'⟩ (by decide) (by decide) rfl
    cases whole : lexeme.text.toList with
    | nil =>
      rw [whole] at matched
      exact absurd matched Pattern.not_matches_char_seq_nil
    | cons c rest =>
      rw [whole] at matched
      obtain ⟨rfl, closed⟩ := Rule.matches_quoted.mp matched
      -- The closing quote is one byte of its own, so that the cut ends before it.
      rcases Rule.ends_of_closesQuote closed with ⟨_, impossible⟩ | ⟨inner, rfl⟩
      · cases impossible
      · refine ⟨inner, ?_⟩
        have quote : '"'.utf8Size = 1 := by decide
        have whole := cut_append ['"'] inner ['"']
        rw [sub_eq (by simp [quote]), pure_bind]
        simpa [quote, Nat.add_comm] using whole
  next kind =>
    rw [kind] at spelled
    have matched := spelled ⟨.token .positionalParam, Rule.positional⟩ (by decide) (by decide) rfl
    obtain ⟨rest, whole, _⟩ := Rule.matches_positional.mp matched
    exact ⟨rest, by rw [whole, cut_sign (by decide)]⟩
  next kind =>
    rw [kind] at spelled
    have matched := spelled ⟨.token .namedParam, Rule.named⟩ (by decide) (by decide) rfl
    obtain ⟨rest, whole, _⟩ := Rule.matches_named.mp matched
    exact ⟨rest, by rw [whole, cut_sign (by decide)]⟩
  · exact ⟨_, rfl⟩

/-- The spelling of a token is read without a trap from its own text, and from any that has that
text at the same place. -/
theorem spell_eq {offset base : Nat} {text whole : List Char} {token : Token}
    (member : token ∈ AnnotatedSql.significantAt offset text)
    (holds : token.span.Holds base whole token.text.toList) : spell base whole token = pure token := by
  have listed := mem_lexemes_of_place (List.mem_filter.mp member).1
  obtain ⟨inner, safe⟩ := bare_safe listed
  unfold spell
  rw [slice_holds holds, pure_bind]
  have sameBare : bare token.kind token.text.toList = pure inner := safe
  rw [sameBare, pure_bind, String.ofList_toList]

end Checked

end AnnotatedSql
