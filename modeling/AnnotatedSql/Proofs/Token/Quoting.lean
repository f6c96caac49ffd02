import AnnotatedSql.Proofs.Token.Cutting
import AnnotatedSql.Proofs.Token.Tiling
import AnnotatedSql.Proofs.Token.Writing
import AnnotatedSql.Statement.Body
import AnnotatedSql.Statement.Name

/-!
# Quoted names

A name in quotes is one token if its own quotes are written twice and no quote follows. What follows
a token is read as if it stood alone, so a text is read piece by piece.
-/

namespace AnnotatedSql

/-- Text in which every quote is written twice. -/
def doubled (text : List Char) : List Char :=
  text.flatMap fun c => if c = '"' then ['"', '"'] else [c]

/-- A name in quotes. -/
def quotedName (name : String) : List Char := '"' :: (doubled name.toList ++ ['"'])

theorem doubled_cons (c : Char) (text : List Char) :
    doubled (c :: text) = (if c = '"' then ['"', '"'] else [c]) ++ doubled text :=
  List.flatMap_cons

theorem doubled_of_not_mem {text : List Char} (plain : '"' ∉ text) : doubled text = text := by
  induction text with
  | nil => rfl
  | cons c text ih =>
    rw [List.mem_cons, not_or] at plain
    rw [doubled_cons, if_neg (Ne.symm plain.1), ih plain.2]
    rfl

/-- Writing quotes twice is undone by reading pairs of them as one. -/
theorem undouble_doubled (text : List Char) : undouble (doubled text) = text := by
  induction text with
  | nil => rfl
  | cons c text ih =>
    rw [doubled_cons]
    by_cases quote : c = '"'
    · rw [if_pos quote, quote]
      exact congrArg ('"' :: ·) ih
    · rw [if_neg quote, List.singleton_append, undouble, ih]
      rintro rest rfl
      exact absurd rfl quote

namespace Lexer

open Pattern

variable {kind : TokenKind} {token text rest : List Char}

/-- Pairs of quotes do not close a quoted text, the quote after them does. -/
theorem closesQuote_doubled (text : List Char) :
    Rule.closesQuote '"' false (doubled text ++ ['"']) = true := by
  induction text with
  | nil => rfl
  | cons c text ih =>
    rw [doubled_cons]
    by_cases quote : c = '"'
    · rw [if_pos quote]
      simpa [Rule.closesQuote] using ih
    · rw [if_neg quote]
      simpa [Rule.closesQuote, quote] using ih

/-- A name in quotes is a token, unless another quote goes on with it. -/
theorem begins_quotedName (name : String) (stops : rest.head? ≠ some '"') :
    Begins .quotedIdent (quotedName name) rest := by
  have member : (⟨.token .quotedIdent, Rule.quoted '"'⟩ : Rule) ∈ Rule.all := by simp [Rule.all]
  have only : ∀ other ∈ startingWith '"', other = ⟨.token .quotedIdent, Rule.quoted '"'⟩ := by
    rw [startingWith_doubleQuote]
    exact fun other => List.mem_singleton.mp
  have closed := closesQuote_doubled name.toList
  refine .ofOnly member rfl only (Rule.matches_quoted.mpr ⟨rfl, closed⟩) ?_
  rintro d more ⟨tail, rfl⟩ goesOn
  obtain ⟨_, longer⟩ := Rule.matches_quoted.mp goesOn
  obtain rfl := Rule.closesQuote_append closed longer
  exact stops rfl

/-! ## What follows a token -/

/-- A token that a text begins with is its first lexeme, and those of the rest follow. -/
theorem Begins.lexemes_eq (begins : Begins kind token rest) :
    lexemes (token ++ rest) = ⟨kind, String.ofList token⟩ :: lexemes rest := by
  obtain ⟨pieces, cuts⟩ := exists_cuts rest
  rw [(Cuts.token begins cuts).lexemes_eq, cuts.lexemes_eq]
  rfl

theorem join_after {pieces : List Piece} (cuts : Cuts text pieces) {fault : List Char}
    {before after : List Lexeme} {lexeme : Lexeme}
    (split : join fault pieces = before ++ lexeme :: after) (sound : lexeme.kind ≠ .garbage) :
    ∃ rest, after = lexemes rest ∧ Begins lexeme.kind lexeme.text.toList rest := by
  have flushed : ∀ {fault}, lexeme ∉ flush fault := by
    intro fault member
    unfold flush at member
    split at member
    · cases member
    · rw [List.mem_singleton.mp member] at sound
      exact sound rfl
  induction cuts generalizing fault before with
  | nil =>
    have member : lexeme ∈ join fault [] := by rw [split]; simp
    exact absurd member flushed
  | @token kind token rest pieces begins next ih =>
    have here : join [] pieces = lexemes rest ∧ Begins kind (String.ofList token).toList rest :=
      ⟨next.lexemes_eq.symm, by rwa [String.toList_ofList]⟩
    rw [join] at split
    rcases List.append_eq_append_iff.mp split with ⟨further, _, later⟩ | ⟨further, pending, later⟩
    · cases further with
      | nil =>
        cases later
        exact ⟨rest, here⟩
      | cons first further => exact ih (List.cons.inj later).2
    · cases further with
      | nil =>
        cases later
        exact ⟨rest, here⟩
      | cons first further =>
        cases later
        exact absurd (by rw [pending]; simp) flushed
  | fault fails next ih => exact ih split

/-- The lexemes after a token are those of the text after it, with which the token was found. -/
theorem lexemes_after {before after : List Lexeme} {lexeme : Lexeme}
    (split : lexemes text = before ++ lexeme :: after) (sound : lexeme.kind ≠ .garbage) :
    ∃ rest, after = lexemes rest ∧ Begins lexeme.kind lexeme.text.toList rest ∧
      text = before.flatMap (·.text.toList) ++ lexeme.text.toList ++ rest := by
  obtain ⟨pieces, cuts⟩ := exists_cuts text
  obtain ⟨rest, rfl, begins⟩ := join_after cuts (cuts.lexemes_eq.symm.trans split) sound
  refine ⟨rest, rfl, begins, ?_⟩
  have whole := lexemes_flatten text
  rwa [split, List.flatMap_append, List.flatMap_cons, lexemes_flatten, ← List.append_assoc,
    eq_comm] at whole

end Lexer

/-- A token stands where the lexemes before it end. -/
theorem place_split {offset : Nat} {all : List Lexeme} {first rest : List Token} {token : Token}
    (split : place offset all = first ++ token :: rest) :
    ∃ before, all = before ++ token.toLexeme :: rest.map (·.toLexeme) ∧
      token.span.start = offset + byteLength (before.flatMap (·.text.toList)) ∧
      token.span.stop =
        offset + byteLength (before.flatMap (·.text.toList) ++ token.text.toList) := by
  induction all generalizing offset first with
  | nil => simp [place] at split
  | cons lexeme all ih =>
    rw [place] at split
    cases first with
    | nil =>
      obtain ⟨rfl, rfl⟩ := List.cons.inj split
      exact ⟨[], by simp [place_lexeme], by simp, by simp⟩
    | cons other first =>
      obtain ⟨_, later⟩ := List.cons.inj split
      obtain ⟨before, rfl, starts, stops⟩ := ih later
      refine ⟨lexeme :: before, rfl, ?_, ?_⟩
      · rw [starts, List.flatMap_cons, byteLength_append, Nat.add_assoc]
      · rw [stops, List.flatMap_cons, List.append_assoc, byteLength_append lexeme.text.toList,
          Nat.add_assoc]

namespace Body

/-- The text after token `i`. -/
def textAfter (body : Body) (i : Nat) : List Char :=
  dropBytes ((body.spanAt i).stop - body.base) body.text

/-- The significant tokens after a token are those of the text after it. -/
theorem lexemes_textAfter {base i : Nat} {text : List Char} {kind : TokenKind}
    (found : (Body.read base text).statement.is i kind = true) (sound : kind ≠ .garbage) :
    (Body.read base text).statement.lexemes.toList.drop (i + 1) =
      (lexemes ((Body.read base text).textAfter i)).filter fun lexeme => !lexeme.kind.isTrivia := by
  have listed : (Body.read base text).statement.lexemes.toList =
      (significantAt base text).map (·.toLexeme) := by
    simp [Body.statement, Body.read, Statement.ofLexemes]
  have tokens : (Body.read base text).tokens.toList = significantAt base text := by
    simp [Body.read]
  obtain ⟨token, read, isKind⟩ : ∃ token, (significantAt base text)[i]? = some token ∧
      token.kind = kind := by
    have read := eq_of_beq found
    unfold Statement.kind? at read
    rw [← Array.getElem?_toList, listed, List.getElem?_map, Option.map_map] at read
    exact Option.map_eq_some_iff.mp read
  have split : significantAt base text = (significantAt base text).take i ++
      token :: (significantAt base text).drop (i + 1) := by
    obtain ⟨inside, rfl⟩ := List.getElem?_eq_some_iff.mp read
    rw [List.getElem_cons_drop, List.take_append_drop]
  obtain ⟨_, between, whole, _, kept⟩ := List.filter_eq_append_iff.mp split
  obtain ⟨skipped, rest, rfl, _, _, following⟩ := List.filter_eq_cons_iff.mp kept
  rw [← List.append_assoc] at whole
  obtain ⟨before, lexed, _, stops⟩ := place_split whole
  obtain ⟨after, same, _, spelled⟩ := Lexer.lexemes_after lexed (isKind ▸ sound)
  have left : (Body.read base text).textAfter i = after := by
    have spanned : (Body.read base text).spanAt i = token.span := by
      rw [spanAt, ← Array.getElem?_toList, tokens, read]
      rfl
    have base_ : (Body.read base text).base = base := rfl
    have text_ : (Body.read base text).text = text := rfl
    rw [textAfter, spanned, stops, base_, text_, Nat.add_sub_cancel_left, spelled,
      dropBytes_append]
  rw [listed, ← List.map_drop, ← following, left, ← same, List.filter_map]
  rfl

end Body

end AnnotatedSql
