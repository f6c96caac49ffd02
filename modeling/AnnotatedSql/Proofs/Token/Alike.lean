import AnnotatedSql.Proofs.Token.Replacing
import AnnotatedSql.Proofs.Token.Respelling
import Mathlib.Data.List.Find

/-!
# Texts that the rules do not tell apart

Two texts are alike in some way if no rule tells them apart, part by part. Then both are cut at the
same places, faults and all. Strings in dollar quotes are the exception, because their tags are no
rule's business: where a text opens a tag that it does not close, the other must not close it.
-/

namespace AnnotatedSql

namespace Lexer

/-- A likeness of texts that no rule sees through. -/
structure Indistinct (alike : List Char → List Char → Prop) : Prop where
  refl : ∀ text, alike text text
  symm : ∀ {text other}, alike text other → alike other text
  append : ∀ {text other more further}, alike text other → alike more further →
    alike (text ++ more) (other ++ further)
  empty : ∀ {other}, alike [] other → other = []
  single : ∀ {c other}, alike [c] other → ∃ d, other = [d]
  part : ∀ {text other further}, alike text other → further <+: other →
    ∃ more, more <+: text ∧ alike more further
  matched : ∀ {rule : Rule} {text other}, rule ∈ Rule.all → alike text other →
    rule.pattern.Matches text → rule.pattern.Matches other

/-- Whatever a text leaves open, the other does not close: wherever the text is cut before a tag
that is not found again, the tag is not found again in the other either. -/
def KeepsOpen (alike : List Char → List Char → Prop) (text other : List Char) : Prop :=
  ∀ before tag after first second, text = before ++ (tag ++ after) → Leads (tag ++ after) before →
    other = first ++ (tag ++ second) → alike before first → alike after second →
      Pattern.Matches Rule.dollarTag tag → ¬tag <:+: after → ¬tag <:+: second

/-- Pieces of one kind that are alike. Strings and faults are the same. -/
structure Piece.Alike (alike : List Char → List Char → Prop) (piece other : Piece) : Prop where
  kind : other.kind = piece.kind
  text : alike piece.text other.text
  same : piece.kind = none ∨ piece.kind = some .stringLiteral → other = piece

namespace Indistinct

variable {alike : List Char → List Char → Prop} (indistinct : Indistinct alike)
  {token other rest others fault : List Char} {reading : Reading}

include indistinct

theorem matches_iff {rule : Rule} (member : rule ∈ Rule.all) (similar : alike token other) :
    rule.pattern.Matches token ↔ rule.pattern.Matches other :=
  ⟨indistinct.matched member similar, indistinct.matched member (indistinct.symm similar)⟩

theorem firstReading_eq (similar : alike token other) :
    firstReading Rule.all other = firstReading Rule.all token := by
  unfold firstReading
  congr 1
  refine List.find?_congr fun rule member => ?_
  rw [Bool.eq_iff_iff, Pattern.accepts_iff, Pattern.accepts_iff]
  exact (indistinct.matches_iff member similar).symm

theorem final (final : Final Rule.all token rest) (similar : alike token other)
    (follows : alike rest others) : Final Rule.all other others := by
  intro further nonempty starts
  obtain ⟨more, begins, goesOn⟩ := indistinct.part follows starts
  have longer : more ≠ [] := by
    rintro rfl
    exact nonempty (indistinct.empty goesOn)
  rw [indistinct.firstReading_eq (indistinct.append similar goesOn)]
  exact final more longer begins

theorem longest (longest : Longest Rule.all reading token rest) (similar : alike token other)
    (follows : alike rest others) : Longest Rule.all reading other others :=
  ⟨(indistinct.firstReading_eq similar).trans longest.matched,
    indistinct.final longest.final similar follows⟩

theorem alive (alive : Alive Rule.all token) (similar : alike token other) :
    Alive Rule.all other := by
  obtain ⟨rule, member, more, matched⟩ := alive_iff.mp alive
  have whole := indistinct.append similar (indistinct.refl more)
  exact alive_iff.mpr ⟨rule, member, more, indistinct.matched member whole matched⟩

theorem nonempty (nonempty : token ≠ []) (similar : alike token other) : other ≠ [] := by
  rintro rfl
  exact nonempty (indistinct.empty (indistinct.symm similar))

theorem stops (stops : Stops Rule.all fault rest) (follows : alike rest others) :
    Stops Rule.all fault others := by
  refine ⟨stops.alive, fun d tail same goesOn => ?_⟩
  obtain ⟨more, begins, similar⟩ := indistinct.part follows (same ▸ ⟨tail, rfl⟩ : [d] <+: others)
  obtain ⟨c, rfl⟩ := indistinct.single (indistinct.symm similar)
  obtain ⟨left, rfl⟩ := begins
  have back := indistinct.append (indistinct.refl fault) (indistinct.symm similar)
  exact stops.ends c left rfl (indistinct.alive goesOn back)

/-- A token is one of the same kind where a text like the rest follows. Strings are kept. -/
theorem begins {kind : TokenKind} (begins : Begins kind token rest) (similar : alike token other)
    (kept : kind = .stringLiteral → other = token) (follows : alike rest others) :
    Begins kind other others := by
  by_cases isString : kind = .stringLiteral
  · rw [kept isString]
    exact begins.before fun _ longest =>
      indistinct.longest longest (indistinct.refl token) follows
  · cases begins with
    | rule nonempty longest =>
      exact .rule (indistinct.nonempty nonempty similar)
        (indistinct.longest longest similar follows)
    | quoted string _ _ _ _ _ _ => exact absurd string isString

theorem fails (fails : Fails fault rest) (follows : alike rest others)
    (open_ : Pattern.Matches Rule.dollarTag fault → ¬fault <:+: rest → ¬fault <:+: others) :
    Fails fault others := by
  cases fails with
  | unclosed nonempty longest unfound =>
    have tagged := tag_of_reading longest.matched
    refine .unclosed nonempty ⟨longest.matched, final_tag tagged⟩ ?_
    exact distanceTo_eq_none.mpr (open_ tagged (distanceTo_eq_none.mp unfound))
  | stuck nonempty unmatched stops =>
    refine .stuck nonempty ?_ ?_
    · exact indistinct.final unmatched (indistinct.refl [])
        (indistinct.append (indistinct.refl fault) follows)
    · exact stops.imp_left fun stops => indistinct.stops stops follows

/-- A text with pieces like those of another is cut into them. -/
theorem cuts {text : List Char} {pieces further : List Piece} (cuts : Cuts text pieces)
    (similar : List.Forall₂ (Piece.Alike alike) pieces further)
    (keeps : KeepsOpen alike text (further.flatMap Piece.text)) :
    Cuts (further.flatMap Piece.text) further ∧ alike text (further.flatMap Piece.text) := by
  induction cuts generalizing further with
  | nil =>
    cases similar
    exact ⟨.nil, indistinct.refl []⟩
  | @token kind token rest pieces begins _ ih =>
    cases similar with
    | @cons _ piece _ others first later =>
      rw [List.flatMap_cons] at keeps ⊢
      obtain ⟨next, follows⟩ := ih later fun before tag after third fourth whole leads parts =>
        fun similar => keeps (token ++ before) tag after (piece.text ++ third) fourth
          (by rw [whole, List.append_assoc]) (.token (whole ▸ begins) leads)
          (by rw [parts, List.append_assoc]) (indistinct.append first.text similar)
      obtain ⟨_, text⟩ := piece
      obtain rfl : _ = some kind := first.kind
      have kept : kind = .stringLiteral → text = token := by
        rintro rfl
        exact congrArg Piece.text (first.same (Or.inr rfl))
      exact ⟨.token (indistinct.begins begins first.text kept follows) next,
        indistinct.append first.text follows⟩
  | @fault fault rest pieces fails _ ih =>
    cases similar with
    | @cons _ piece _ others first later =>
      obtain rfl := first.same (Or.inl rfl)
      rw [List.flatMap_cons] at keeps ⊢
      obtain ⟨next, follows⟩ := ih later fun before tag after third fourth whole leads parts =>
        fun similar => keeps (fault ++ before) tag after (fault ++ third) fourth
          (by rw [whole, List.append_assoc]) (.fault (whole ▸ fails) leads)
          (by rw [parts, List.append_assoc])
          (indistinct.append (indistinct.refl fault) similar)
      have closed := keeps [] fault rest [] _ rfl .nil rfl (indistinct.refl []) follows
      exact ⟨.fault (indistinct.fails fails follows closed) next,
        indistinct.append (indistinct.refl fault) follows⟩

end Indistinct

end Lexer

/-- Lexemes of one kind that are alike. Strings and garbage are the same. -/
structure Lexeme.Alike (alike : List Char → List Char → Prop) (lexeme other : Lexeme) : Prop where
  kind : other.kind = lexeme.kind
  text : alike lexeme.text.toList other.text.toList
  same : lexeme.kind = .garbage ∨ lexeme.kind = .stringLiteral → other = lexeme

namespace Lexer

variable {alike : List Char → List Char → Prop}

/-- Lexemes like those that pieces make up are made up of pieces like them. -/
theorem exists_pieces (indistinct : Indistinct alike) {fault : List Char} {pieces : List Piece}
    {others : List Lexeme} (similar : List.Forall₂ (Lexeme.Alike alike) (join fault pieces) others) :
    ∃ further, others = join fault further ∧ List.Forall₂ (Piece.Alike alike) pieces further := by
  induction pieces generalizing fault others with
  | nil =>
    refine ⟨[], ?_, .nil⟩
    cases fault with
    | nil =>
      cases similar
      rfl
    | cons c fault =>
      rcases similar with _ | ⟨garbage, none⟩
      cases none
      rw [garbage.same (Or.inl rfl)]
      rfl
  | cons piece pieces ih =>
    obtain ⟨_ | kind, text⟩ := piece
    · obtain ⟨further, rfl, pairs⟩ := ih similar
      exact ⟨⟨none, text⟩ :: further, rfl, .cons ⟨rfl, indistinct.refl text, fun _ => rfl⟩ pairs⟩
    · have token : ∀ {others}, List.Forall₂ (Lexeme.Alike alike)
          (⟨kind, String.ofList text⟩ :: join [] pieces) others →
            ∃ other further, others = ⟨kind, String.ofList other⟩ :: join [] further ∧
              List.Forall₂ (Piece.Alike alike) (⟨some kind, text⟩ :: pieces)
                (⟨some kind, other⟩ :: further) := by
        intro others similar
        rcases similar with _ | @⟨_, lexeme, _, _, first, later⟩
        obtain ⟨further, rfl, pairs⟩ := ih later
        obtain ⟨_, spelling⟩ := lexeme
        obtain rfl : _ = kind := first.kind
        have texts := first.text
        rw [String.toList_ofList] at texts
        refine ⟨spelling.toList, further, by rw [String.ofList_toList], .cons ⟨rfl, texts, ?_⟩ pairs⟩
        intro string
        have kept := first.same (Or.inr (by simpa using string))
        simp only [Lexeme.mk.injEq, true_and] at kept
        rw [kept, String.toList_ofList]
      rw [join] at similar
      cases fault with
      | nil =>
        obtain ⟨other, further, rfl, pairs⟩ := token similar
        exact ⟨_, rfl, pairs⟩
      | cons c fault =>
        rcases similar with _ | ⟨garbage, later⟩
        obtain ⟨other, further, rfl, pairs⟩ := token later
        refine ⟨_, ?_, pairs⟩
        rw [garbage.same (Or.inl rfl)]
        rfl

/-- A text of lexemes like those of another is read as them. -/
theorem Indistinct.lexemes_textOf (indistinct : Indistinct alike) {text : List Char}
    {others : List Lexeme} (similar : List.Forall₂ (Lexeme.Alike alike) (lexemes text) others)
    (keeps : KeepsOpen alike text (textOf others)) : lexemes (textOf others) = others := by
  obtain ⟨pieces, cut⟩ := exists_cuts text
  rw [cut.lexemes_eq] at similar
  obtain ⟨further, rfl, pairs⟩ := exists_pieces indistinct similar
  have flat : textOf (join [] further) = further.flatMap Piece.text := join_flatten [] further
  rw [flat] at keeps ⊢
  exact (indistinct.cuts cut pairs keeps).1.lexemes_eq

end Lexer

end AnnotatedSql
