import AnnotatedSql.Proofs.Token.Longest

/-!
# Cutting a text into tokens

No character is lost: the lexemes of a text make up the text. A text without a fault is cut by its
longest matches alone, one after another.
-/

namespace AnnotatedSql

namespace Lexer

/-- A scan of the whole text finds its longest match. -/
theorem scan_best {text : List Char} {reading : Reading} {length : Nat} :
    (scanFrom Rule.all 0 none text).best = some (reading, length) ↔
      ∃ matched rest, matched ≠ [] ∧ text = matched ++ rest ∧ length = matched.length ∧
        Longest Rule.all reading matched rest := by
  rw [scanFrom_best]
  constructor
  · rintro (⟨matched, rest, nonempty, whole, counted, longest⟩ | ⟨impossible, _⟩)
    · exact ⟨matched, rest, nonempty, whole, by omega, longest⟩
    · cases impossible
  · rintro ⟨matched, rest, nonempty, whole, counted, longest⟩
    exact Or.inl ⟨matched, rest, nonempty, whole, by omega, longest⟩

/-- A piece has at least one character. -/
theorem step_pos (text : List Char) : 1 ≤ (step text).2 := by
  have positive : ∀ {reading length},
      (scanFrom Rule.all 0 none text).best = some (reading, length) → 1 ≤ length := by
    intro reading length found
    obtain ⟨matched, rest, nonempty, _, counted, _⟩ := scan_best.mp found
    rw [counted]
    exact List.length_pos_iff.mpr nonempty
  unfold step
  dsimp only
  split
  next found => exact positive found
  next found =>
    have := positive found
    split
    · dsimp only
      omega
    · exact this
  · exact Nat.le_max_left _ _

/-- The pieces of a text, one after another, are the text. -/
theorem cut_flatten {fuel : Nat} {text : List Char} (enough : text.length ≤ fuel) :
    (cut fuel text).flatMap Piece.text = text := by
  induction fuel generalizing text with
  | zero =>
    rw [List.length_eq_zero_iff.mp (Nat.le_zero.mp enough)]
    rfl
  | succ fuel ih =>
    cases text with
    | nil => rfl
    | cons c text =>
      have progress := step_pos (c :: text)
      unfold cut
      dsimp only
      rw [List.flatMap_cons, ih ?_, List.take_append_drop]
      rw [List.length_drop, List.length_cons] at *
      omega

theorem flush_flatten (fault : List Char) :
    (flush fault).flatMap (·.text.toList) = fault := by
  cases fault with
  | nil => rfl
  | cons c fault => simp [flush]

theorem join_flatten (fault : List Char) (pieces : List Piece) :
    (join fault pieces).flatMap (·.text.toList) = fault ++ pieces.flatMap Piece.text := by
  induction pieces generalizing fault with
  | nil =>
    rw [List.flatMap_nil, List.append_nil]
    exact flush_flatten fault
  | cons piece pieces ih =>
    rcases piece with ⟨_ | kind, text⟩
    · rw [join, ih, List.flatMap_cons, List.append_assoc]
    · rw [join, List.flatMap_append, List.flatMap_cons, List.flatMap_cons, flush_flatten, ih,
        String.toList_ofList, List.nil_append]

end Lexer

/-- No character is lost: the lexemes of a text make up the text. -/
theorem lexemes_flatten (text : List Char) : (lexemes text).flatMap (·.text.toList) = text := by
  unfold lexemes
  rw [Lexer.join_flatten, List.nil_append, Lexer.cut_flatten (Nat.le_refl _)]

namespace Lexer

/-! ## Texts without a fault -/

/-- The text `token`, followed by `rest`, is the token of the given kind that they begin with: it is
matched and nothing longer is, or it is a dollar-quoted string up to the first tag that ends it. -/
inductive Begins (kind : TokenKind) (token rest : List Char) : Prop
  | rule (nonempty : token ≠ []) (longest : Longest Rule.all (.token kind) token rest)
  | quoted (isString : kind = .stringLiteral) (tag inner : List Char) (nonempty : tag ≠ [])
      (whole : token = tag ++ inner ++ tag)
      (longest : Longest Rule.all .openingTag tag (inner ++ tag ++ rest))
      (first : distanceTo tag (inner ++ tag ++ rest) = some inner.length)

theorem Begins.ne_nil {kind : TokenKind} {token rest : List Char}
    (begins : Begins kind token rest) : token ≠ [] := by
  cases begins with
  | rule nonempty _ => exact nonempty
  | quoted _ tag inner nonempty whole _ _ =>
    rw [whole]
    simp [nonempty]

/-- Where the tag occurs next. -/
theorem distanceTo_some {tag text : List Char} {distance : Nat}
    (found : distanceTo tag text = some distance) :
    ∃ before after, text = before ++ tag ++ after ∧ before.length = distance := by
  induction text generalizing distance with
  | nil =>
    unfold distanceTo at found
    split at found
    next empty =>
      cases found
      exact ⟨[], [], by simpa using empty, rfl⟩
    · cases found
  | cons c text ih =>
    unfold distanceTo at found
    split at found
    next here =>
      cases found
      obtain ⟨after, whole⟩ := List.isPrefixOf_iff_prefix.mp here
      exact ⟨[], after, whole.symm, rfl⟩
    · obtain ⟨distance, later, rfl⟩ := Option.map_eq_some_iff.mp found
      obtain ⟨before, after, rfl, counted⟩ := ih later
      exact ⟨c :: before, after, rfl, by simp [counted]⟩

theorem exists_begins {text : List Char} {kind : TokenKind} {length : Nat}
    (stepped : step text = (some kind, length)) :
    ∃ token rest, text = token ++ rest ∧ length = token.length ∧ Begins kind token rest := by
  unfold step at stepped
  dsimp only at stepped
  split at stepped
  next found =>
    obtain ⟨token, rest, nonempty, whole, counted, longest⟩ := scan_best.mp found
    cases stepped
    exact ⟨token, rest, whole, counted, .rule nonempty longest⟩
  next found =>
    obtain ⟨tag, others, nonempty, rfl, rfl, longest⟩ := scan_best.mp found
    rw [List.take_left, List.drop_left] at stepped
    split at stepped
    next distance occurs =>
      cases stepped
      obtain ⟨inner, rest, rfl, rfl⟩ := distanceTo_some occurs
      refine ⟨tag ++ inner ++ tag, rest, by simp, by simp only [List.length_append], ?_⟩
      exact .quoted rfl tag inner nonempty rfl longest occurs
    next => cases stepped
  next => cases stepped

theorem step_of_begins {kind : TokenKind} {token rest : List Char}
    (begins : Begins kind token rest) : step (token ++ rest) = (some kind, token.length) := by
  unfold step
  dsimp only
  cases begins with
  | rule nonempty longest =>
    rw [scan_best.mpr ⟨token, rest, nonempty, rfl, rfl, longest⟩]
  | quoted isString tag inner nonempty whole longest first =>
    have split : token ++ rest = tag ++ (inner ++ tag ++ rest) := by simp [whole]
    rw [split, scan_best.mpr ⟨tag, _, nonempty, rfl, rfl, longest⟩]
    simp only [List.take_left, List.drop_left, first, isString, whole, List.length_append]

end Lexer

/-- The text is cut into the lexemes, without a fault. -/
inductive Lexes : List Char → List Lexeme → Prop
  | nil : Lexes [] []
  | cons {kind : TokenKind} {token rest : List Char} {others : List Lexeme}
      (begins : Lexer.Begins kind token rest) (next : Lexes rest others) :
      Lexes (token ++ rest) (⟨kind, String.ofList token⟩ :: others)

namespace Lexer

/-- Cutting follows the tokens one by one. -/
theorem cut_of_lexes {text : List Char} {found : List Lexeme} (lexes : Lexes text found)
    {fuel : Nat} (enough : text.length ≤ fuel) :
    join [] (cut fuel text) = found := by
  induction lexes generalizing fuel with
  | nil => cases fuel <;> rfl
  | @cons kind token rest others begins _ ih =>
    obtain ⟨c, tail, whole⟩ := List.exists_cons_of_ne_nil begins.ne_nil
    cases fuel with
    | zero =>
      rw [whole] at enough
      simp at enough
    | succ fuel =>
      have stepped := step_of_begins begins
      rw [whole, List.cons_append] at stepped ⊢
      unfold cut
      rw [stepped]
      dsimp only
      rw [← List.cons_append, List.take_left, List.drop_left, join, ih ?_]
      · rfl
      · rw [whole] at enough
        simp only [List.length_append, List.length_cons] at enough
        omega

theorem lexes_of_cut {fuel : Nat} {text : List Char} (enough : text.length ≤ fuel)
    (clean : ∀ piece ∈ cut fuel text, piece.kind ≠ none) :
    Lexes text (join [] (cut fuel text)) := by
  induction fuel generalizing text with
  | zero =>
    rw [List.length_eq_zero_iff.mp (Nat.le_zero.mp enough)]
    exact .nil
  | succ fuel ih =>
    cases text with
    | nil => exact .nil
    | cons c text =>
      have progress := step_pos (c :: text)
      unfold cut at clean ⊢
      generalize stepped : step (c :: text) = outcome at clean progress ⊢
      obtain ⟨kind, length⟩ := outcome
      dsimp only at clean progress ⊢
      cases kind with
      | none => exact absurd rfl (clean _ List.mem_cons_self)
      | some kind =>
        obtain ⟨token, rest, whole, rfl, begins⟩ := exists_begins stepped
        rw [whole, List.take_left, List.drop_left] at clean ⊢
        refine .cons begins (ih ?_ fun piece member => clean piece (by simp [member]))
        have counted := congrArg List.length whole
        rw [List.length_append] at counted
        omega

theorem piece_nonempty {fuel : Nat} {text : List Char} {piece : Piece}
    (member : piece ∈ cut fuel text) : piece.text ≠ [] := by
  induction fuel generalizing text with
  | zero => cases member
  | succ fuel ih =>
    cases text with
    | nil => cases member
    | cons c text =>
      have progress := step_pos (c :: text)
      unfold cut at member
      generalize step (c :: text) = outcome at member progress
      rcases List.mem_cons.mp member with rfl | member
      · intro empty
        rcases List.take_eq_nil_iff.mp empty with none | none
        · omega
        · cases none
      · exact ih member

/-- A fault leaves garbage. -/
theorem garbage_of_fault {fault : List Char} {pieces : List Piece}
    (nonempty : ∀ piece ∈ pieces, piece.text ≠ [])
    (faulty : fault ≠ [] ∨ ∃ piece ∈ pieces, piece.kind = none) :
    ∃ lexeme ∈ join fault pieces, lexeme.kind = .garbage := by
  have flushed : fault ≠ [] → ∃ lexeme ∈ flush fault, lexeme.kind = .garbage := by
    intro pending
    exact ⟨⟨.garbage, String.ofList fault⟩, by simp [flush, pending], rfl⟩
  induction pieces generalizing fault with
  | nil =>
    rcases faulty with pending | ⟨piece, member, _⟩
    · exact flushed pending
    · cases member
  | cons piece pieces ih =>
    have laterNonempty : ∀ piece ∈ pieces, piece.text ≠ [] := fun other member =>
      nonempty other (List.mem_cons_of_mem _ member)
    rcases piece with ⟨_ | kind, text⟩
    · have grown : fault ++ text ≠ [] := by
        simp [nonempty ⟨none, text⟩ List.mem_cons_self]
      exact ih laterNonempty (Or.inl grown) fun _ =>
        ⟨⟨.garbage, String.ofList (fault ++ text)⟩, by simp [flush, grown], rfl⟩
    · rw [join]
      rcases faulty with pending | ⟨piece, member, none⟩
      · obtain ⟨lexeme, listed, garbage⟩ := flushed pending
        exact ⟨lexeme, by simp [listed], garbage⟩
      · rcases List.mem_cons.mp member with rfl | member
        · cases none
        · obtain ⟨lexeme, listed, garbage⟩ := ih laterNonempty (Or.inr ⟨piece, member, none⟩)
            fun pending => absurd rfl pending
          exact ⟨lexeme, by simp [listed], garbage⟩

end Lexer

/-- A text whose lexemes are all in order is cut without a fault. -/
theorem lexes_lexemes {text : List Char}
    (clean : ∀ lexeme ∈ lexemes text, lexeme.kind ≠ .garbage) : Lexes text (lexemes text) := by
  refine Lexer.lexes_of_cut (Nat.le_refl _) fun piece member fault => ?_
  obtain ⟨lexeme, listed, garbage⟩ := Lexer.garbage_of_fault
    (fun _ => Lexer.piece_nonempty) (Or.inr ⟨piece, member, fault⟩)
  exact clean lexeme listed garbage

theorem Lexes.lexemes_eq {text : List Char} {found : List Lexeme} (lexes : Lexes text found) :
    lexemes text = found := Lexer.cut_of_lexes lexes (Nat.le_refl _)

end AnnotatedSql
