import AnnotatedSql.Proofs.Token.Alike
import AnnotatedSql.Text.Word

/-!
# Case of words in texts

No rule tells a small letter from the capital. A text in which words are written in another case is
therefore cut at the same places, as long as it closes no tag that was left open: the tags of strings
in dollar quotes are the one thing that is compared letter by letter.
-/

namespace AnnotatedSql

/-! ## Letters -/

/-- The letters that have another case to be folded to. -/
def capitals : List Char := "ABCDEFGHIJKLMNOPQRSTUVWXYZ".toList

theorem mem_capitals {c : Char} (changes : c.toLower ≠ c) : c ∈ capitals := by
  unfold Char.toLower at changes
  split at changes
  next range =>
    have low : 65 ≤ c.toNat := UInt32.le_iff_toNat_le.mp range.1
    have high : c.toNat ≤ 90 := UInt32.le_iff_toNat_le.mp range.2
    have listed : ∀ offset < 26, Char.ofNat (65 + offset) ∈ capitals := by decide
    have member := listed (c.toNat - 65) (by omega)
    rwa [Nat.add_sub_cancel' low, Char.ofNat_toNat] at member
  · exact absurd rfl changes

@[simp] theorem toLower_toLower (c : Char) : c.toLower.toLower = c.toLower := by
  by_cases changes : c.toLower = c
  · rw [changes, changes]
  · have folded : (capitals.all fun c => c.toLower.toLower == c.toLower) = true := by decide
    exact eq_of_beq (List.all_eq_true.mp folded c (mem_capitals changes))

@[simp] theorem foldCase_foldCase (text : String) : foldCase (foldCase text) = foldCase text := by
  simp [foldCase, Function.comp_def]

/-! ## Patterns -/

/-- Whether the pattern takes a capital exactly where it takes the small letter. -/
def Pattern.ignoresCase : Pattern → Bool
  | never => true
  | empty => true
  | char accepts => capitals.all fun c => accepts c == accepts c.toLower
  | seq p q => p.ignoresCase && q.ignoresCase
  | alt p q => p.ignoresCase && q.ignoresCase
  | star p => p.ignoresCase

/-- The texts differ at most in the case of letters. -/
def Recased (text other : List Char) : Prop := other.map Char.toLower = text.map Char.toLower

namespace Recased

variable {text other more further first second : List Char}

theorem refl (text : List Char) : Recased text text := rfl

theorem append (recased : Recased text other) (follows : Recased more further) :
    Recased (text ++ more) (other ++ further) := by
  unfold Recased at recased follows ⊢
  rw [List.map_append, List.map_append, recased, follows]

/-- What differs from two parts in case is two such parts. -/
theorem split (recased : Recased (first ++ second) other) :
    ∃ left right, other = left ++ right ∧ Recased first left ∧ Recased second right := by
  unfold Recased at recased
  rw [List.map_append] at recased
  exact List.map_eq_append_iff.mp recased

theorem cons {c : Char} (recased : Recased (c :: text) other) :
    ∃ d tail, other = d :: tail ∧ d.toLower = c.toLower ∧ Recased text tail := by
  obtain ⟨d, tail, rfl, same, rest⟩ := List.map_eq_cons_iff.mp recased
  exact ⟨d, tail, rfl, same, rest⟩

theorem matched {p : Pattern} (ignores : p.ignoresCase = true) (recased : Recased text other)
    (matched : p.Matches text) : p.Matches other := by
  induction matched generalizing other with
  | empty =>
    obtain rfl := List.map_eq_nil_iff.mp recased
    exact .empty
  | @char accepts c accepted =>
    obtain ⟨d, tail, rfl, same, rest⟩ := recased.cons
    obtain rfl := List.map_eq_nil_iff.mp rest
    have folded : ∀ c, accepts c = accepts c.toLower := by
      intro c
      by_cases changes : c.toLower = c
      · rw [changes]
      · exact eq_of_beq (List.all_eq_true.mp ignores c (mem_capitals changes))
    exact .char (by rw [folded, same, ← folded, accepted])
  | seq _ _ first second =>
    simp only [Pattern.ignoresCase, Bool.and_eq_true] at ignores
    obtain ⟨left, right, rfl, begins, rest⟩ := recased.split
    exact .seq (first ignores.1 begins) (second ignores.2 rest)
  | altLeft _ ih =>
    simp only [Pattern.ignoresCase, Bool.and_eq_true] at ignores
    exact .altLeft (ih ignores.1 recased)
  | altRight _ ih =>
    simp only [Pattern.ignoresCase, Bool.and_eq_true] at ignores
    exact .altRight (ih ignores.2 recased)
  | starNil =>
    obtain rfl := List.map_eq_nil_iff.mp recased
    exact .starNil
  | starCons _ _ first rest =>
    obtain ⟨left, right, rfl, begins, others⟩ := recased.split
    exact .starCons (first ignores begins) (rest ignores others)

end Recased

/-- No rule tells the case of letters. -/
theorem Lexer.indistinct_recased : Indistinct Recased where
  refl := Recased.refl
  symm := Eq.symm
  append := Recased.append
  empty recased := List.map_eq_nil_iff.mp recased
  single recased := by
    obtain ⟨d, tail, rfl, _, rest⟩ := recased.cons
    exact ⟨d, by rw [List.map_eq_nil_iff.mp rest]⟩
  part recased starts := by
    obtain ⟨rest, rfl⟩ := starts
    obtain ⟨more, left, rfl, same, _⟩ := Recased.split (Eq.symm recased)
    exact ⟨more, List.prefix_append _ _, Eq.symm same⟩
  matched member recased matched := by
    have ignores : ∀ rule ∈ Rule.all, rule.pattern.ignoresCase = true := by decide
    exact recased.matched (ignores _ member) matched

/-- Without a dollar sign there is no tag to be left open. -/
theorem Lexer.keepsOpen_of_not_mem {alike : List Char → List Char → Prop} {text other : List Char}
    (plain : '$' ∉ text) : KeepsOpen alike text other := by
  intro before tag after _ _ whole _ _ _ _ tagged
  obtain ⟨_, rfl, _⟩ := Rule.matches_dollarTag.mp tagged
  exact absurd (by simp [whole]) plain

/-! ## Lexemes -/

/-- The lexeme with its letters made small if it is an unquoted word. -/
def Lexeme.folded (lexeme : Lexeme) : Lexeme :=
  match lexeme.kind with
  | .ident => ⟨.ident, foldCase lexeme.text⟩
  | _ => lexeme

theorem Lexeme.folded_kind (lexeme : Lexeme) : lexeme.folded.kind = lexeme.kind := by
  rcases lexeme with ⟨kind, text⟩
  cases kind <;> rfl

theorem Lexeme.folded_of_ne {lexeme : Lexeme} (other : lexeme.kind ≠ .ident) :
    lexeme.folded = lexeme := by
  rcases lexeme with ⟨kind, text⟩
  cases kind with
  | ident => exact absurd rfl other
  | _ => rfl

theorem Lexeme.alike_of_folded {lexeme other : Lexeme} (same : other.folded = lexeme.folded) :
    lexeme.Alike Recased other := by
  have kind : other.kind = lexeme.kind := by rw [← folded_kind, same, folded_kind]
  by_cases word : lexeme.kind = .ident
  · obtain ⟨_, text⟩ := lexeme
    obtain ⟨_, spelling⟩ := other
    obtain rfl : _ = TokenKind.ident := word
    obtain rfl : _ = TokenKind.ident := kind
    have texts : foldCase spelling = foldCase text := congrArg Lexeme.text same
    refine ⟨rfl, ?_, by simp⟩
    unfold Recased
    simpa [foldCase, ← String.toList_inj] using texts
  · rw [folded_of_ne word, folded_of_ne (kind ▸ word)] at same
    subst same
    exact ⟨rfl, Recased.refl _, fun _ => rfl⟩

/-- A text with its words in another case is read as the words in the other case, unless it closes a
tag that was left open. -/
theorem lexemes_recased {text : List Char} {others : List Lexeme}
    (recased : others.map Lexeme.folded = (lexemes text).map Lexeme.folded)
    (keeps : Lexer.KeepsOpen Recased text (textOf others)) : lexemes (textOf others) = others := by
  refine Lexer.indistinct_recased.lexemes_textOf ?_ keeps
  have pairs := List.forall₂_eq_eq_eq ▸ recased.symm
  rw [List.forall₂_map_left_iff, List.forall₂_map_right_iff] at pairs
  exact pairs.imp fun _ _ same => Lexeme.alike_of_folded same.symm

end AnnotatedSql
