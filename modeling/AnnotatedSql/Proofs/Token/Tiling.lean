import AnnotatedSql.Proofs.Text.Cutting
import AnnotatedSql.Proofs.Token.Spelling
import Mathlib.Data.List.Chain

/-!
# Tokens tile their text

The tokens of a text follow one another from its start to its end. Each has at least one character
and holds its own spelling, and a run of faults is one token, so that garbage never stands beside
garbage.
-/

namespace AnnotatedSql

/-! ## Pieces and faults -/

namespace Lexer

variable {lexeme : Lexeme} {fault text : List Char} {pieces : List Piece}

theorem Begins.kind_ne_garbage {kind : TokenKind} {token rest : List Char}
    (begins : Begins kind token rest) : kind ≠ .garbage := by
  rintro rfl
  cases begins with
  | rule _ longest =>
    obtain ⟨rule, listed, read, _⟩ := exists_rule longest.matched
    have none : Reading.token .garbage ∉ Rule.all.map Rule.reading := by decide
    exact none (read ▸ List.mem_map_of_mem listed)
  | quoted isString _ _ _ _ _ _ => cases isString

theorem not_garbage_of_mem_cut {fuel : Nat} :
    ∀ piece ∈ cut fuel text, piece.kind ≠ some .garbage := by
  intro piece member isGarbage
  obtain ⟨rest, begins⟩ := begins_of_mem_cut member isGarbage
  exact begins.kind_ne_garbage rfl

/-- Joining leaves no lexeme empty. -/
theorem text_ne_nil_of_mem_join (nonempty : ∀ piece ∈ pieces, piece.text ≠ [])
    (member : lexeme ∈ join fault pieces) : lexeme.text.toList ≠ [] := by
  have flushed : ∀ {fault}, lexeme ∈ flush fault → lexeme.text.toList ≠ [] := by
    intro fault member
    unfold flush at member
    split at member
    · cases member
    next pending =>
      rw [List.mem_singleton.mp member, String.toList_ofList]
      simpa using pending
  induction pieces generalizing fault with
  | nil => exact flushed member
  | cons piece pieces ih =>
    have others : ∀ piece ∈ pieces, piece.text ≠ [] := fun other listed =>
      nonempty other (List.mem_cons_of_mem _ listed)
    rcases piece with ⟨_ | kind, spelling⟩
    · exact ih others member
    · rw [join, List.mem_append, List.mem_cons] at member
      rcases member with pending | rfl | later
      · exact flushed pending
      · rw [String.toList_ofList]
        exact nonempty _ List.mem_cons_self
      · exact ih others later

/-- At most one of two lexemes is garbage. -/
def Apart (a b : Lexeme) : Prop := ¬(a.kind = .garbage ∧ b.kind = .garbage)

/-- Joining gathers neighbouring faults, so that none stands beside another. -/
theorem join_apart (clean : ∀ piece ∈ pieces, piece.kind ≠ some .garbage) :
    (join fault pieces).IsChain Apart := by
  induction pieces generalizing fault with
  | nil =>
    unfold join flush
    split
    · exact .nil
    · exact .singleton _
  | cons piece pieces ih =>
    have others : ∀ piece ∈ pieces, piece.kind ≠ some .garbage := fun other listed =>
      clean other (List.mem_cons_of_mem _ listed)
    rcases piece with ⟨_ | kind, spelling⟩
    · exact ih others
    · have token : kind ≠ .garbage := fun same =>
        clean _ List.mem_cons_self (congrArg some same)
      have rest : (⟨kind, String.ofList spelling⟩ :: join [] pieces : List Lexeme).IsChain Apart :=
        List.isChain_cons.mpr ⟨fun _ _ both => token both.1, ih others⟩
      unfold join flush
      split
      · exact rest
      · refine List.isChain_cons.mpr ⟨fun next first both => ?_, rest⟩
        obtain rfl := Option.some.inj first
        exact token both.2

end Lexer

/-! ## Places -/

section

variable {offset : Nat} {lexemes : List Lexeme} {token : Token}

theorem place_tile (offset : Nat) (lexemes : List Lexeme) :
    Span.Tile offset (offset + byteLength (lexemes.flatMap (·.text.toList)))
      ((place offset lexemes).map (·.span)) := by
  induction lexemes generalizing offset with
  | nil => rfl
  | cons lexeme rest ih =>
    rw [List.flatMap_cons, byteLength_append, ← Nat.add_assoc]
    exact ⟨rfl, Nat.le_add_right _ _, ih _⟩

theorem place_lexeme (offset : Nat) (lexemes : List Lexeme) :
    (place offset lexemes).map (·.toLexeme) = lexemes := by
  induction lexemes generalizing offset with
  | nil => rfl
  | cons lexeme rest ih => rw [place, List.map_cons, ih]

theorem place_holds (member : token ∈ place offset lexemes) :
    token.span.Holds offset (lexemes.flatMap (·.text.toList)) token.text.toList := by
  induction lexemes generalizing offset with
  | nil => cases member
  | cons lexeme rest ih =>
    rw [List.flatMap_cons]
    rcases List.mem_cons.mp member with rfl | member
    · exact ⟨[], rest.flatMap (·.text.toList), by simp, by simp⟩
    · obtain ⟨before, after, whole, here⟩ := ih member
      refine ⟨lexeme.text.toList ++ before, after, by simp [whole], ?_⟩
      rw [here, byteLength_append, Nat.add_assoc]

theorem mem_lexemes_of_place (member : token ∈ place offset lexemes) :
    token.toLexeme ∈ lexemes := by
  have listed := List.mem_map_of_mem (f := fun token : Token => token.toLexeme) member
  rwa [place_lexeme] at listed

end

/-- The tokens of a text stand one after another from its start to its end, none of them empty, and
each holds its own spelling; the spellings in order are the text. Garbage never follows garbage. -/
theorem lexAt_tile (offset : Nat) (text : List Char) :
    Span.Tile offset (offset + byteLength text) ((lexAt offset text).map (·.span)) ∧
      (∀ token ∈ lexAt offset text, token.span.start < token.span.stop ∧
        token.text ≠ "" ∧ token.span.Holds offset text token.text.toList) ∧
      (lexAt offset text).flatMap (·.text.toList) = text ∧
      (lexAt offset text).IsChain fun a b => ¬(a.kind = .garbage ∧ b.kind = .garbage) := by
  have whole := lexemes_flatten text
  have placed : (lexAt offset text).map (·.toLexeme) = lexemes text := place_lexeme _ _
  refine ⟨?_, fun token member => ?_, ?_, ?_⟩
  · have tile := place_tile offset (lexemes text)
    rwa [whole] at tile
  · have nonempty : token.text.toList ≠ [] := Lexer.text_ne_nil_of_mem_join
      (fun _ => Lexer.piece_nonempty) (mem_lexemes_of_place member)
    have holds := place_holds member
    rw [whole] at holds
    refine ⟨?_, fun empty => nonempty (by rw [empty]; rfl), holds⟩
    obtain ⟨before, after, _, here⟩ := holds
    rw [here]
    exact Nat.lt_add_of_pos_right (byteLength_pos nonempty)
  · calc (lexAt offset text).flatMap (·.text.toList)
        = ((lexAt offset text).map (·.toLexeme)).flatMap (·.text.toList) := by
          rw [List.flatMap_map]
      _ = text := by rw [placed, whole]
  · have apart : (lexemes text).IsChain Lexer.Apart :=
      Lexer.join_apart Lexer.not_garbage_of_mem_cut
    rw [← placed, List.isChain_map] at apart
    exact apart

end AnnotatedSql
