import AnnotatedSql.Proofs.Statement.Mirrored

/-!
# Statements with masked placeholders

Where a statement has its clauses, names, types and references does not depend on how its
placeholders are spelled: all of it can be read off a statement whose placeholders look the same.
-/

namespace AnnotatedSql

/-- Positions in place of names. -/
def TokenKind.masked : TokenKind → TokenKind
  | namedParam => positionalParam
  | kind => kind

/-- The lexeme, or if it is a placeholder the same for all of them. -/
def Lexeme.masked (lexeme : Lexeme) : Lexeme :=
  if lexeme.kind.isParam then ⟨.positionalParam, "$"⟩ else lexeme

theorem Lexeme.masked_kind (lexeme : Lexeme) : lexeme.masked.kind = lexeme.kind.masked := by
  rcases lexeme with ⟨kind, text⟩
  cases kind <;> rfl

namespace Nesting

theorem pairs_masked (index : Nat) (opened : List Nat) (kinds : List TokenKind) :
    pairs index opened (kinds.map TokenKind.masked) = pairs index opened kinds := by
  induction kinds generalizing index opened with
  | nil => rfl
  | cons kind kinds ih =>
    rw [List.map_cons]
    cases kind <;> cases opened <;> simp [TokenKind.masked, pairs, ih]

theorem around_masked (index : Nat) (opened : List Nat) (kinds : List TokenKind) :
    around index opened (kinds.map TokenKind.masked) = around index opened kinds := by
  induction kinds generalizing index opened with
  | nil => rfl
  | cons kind kinds ih =>
    rw [List.map_cons]
    cases kind <;> cases opened <;> simp [TokenKind.masked, around, ih]

end Nesting

namespace Statement

/-- The statement with every placeholder spelled the same. -/
def masked (s : Statement) : Statement := { s with lexemes := s.lexemes.map Lexeme.masked }

theorem ofLexemes_masked (lexemes : List Lexeme) :
    ofLexemes (lexemes.map Lexeme.masked) = (ofLexemes lexemes).masked := by
  have kinds : (lexemes.map Lexeme.masked).map (·.kind) =
      (lexemes.map (·.kind)).map TokenKind.masked := by
    simp [Lexeme.masked_kind]
  simp only [ofLexemes, kinds, Nesting.pairs_masked, Nesting.around_masked, masked,
    List.map_toArray]

variable (s : Statement)

/-! ## Tokens -/

theorem masked_size : s.masked.size = s.size := by simp [masked, size]

theorem masked_lexeme (i : Nat) : s.masked.lexemes[i]? = s.lexemes[i]?.map Lexeme.masked := by
  simp [masked]

theorem masked_kind (i : Nat) : s.masked.kind? i = (s.kind? i).map TokenKind.masked := by
  unfold kind?
  rw [masked_lexeme]
  cases s.lexemes[i]? with
  | none => rfl
  | some lexeme => simp [Lexeme.masked_kind]

/-- Kinds other than those of placeholders are told apart as before. -/
theorem masked_is (i : Nat) (kind : TokenKind) (noPosition : kind ≠ .positionalParam)
    (noName : kind ≠ .namedParam) : s.masked.is i kind = s.is i kind := by
  unfold is
  rw [masked_kind]
  cases s.kind? i with
  | none => rfl
  | some other => cases other <;> cases kind <;> first | rfl | contradiction

theorem masked_isKeyword (i : Nat) (keyword : String) :
    s.masked.isKeyword i keyword = s.isKeyword i keyword := by
  simp only [isKeyword, is, text, kind?, masked_lexeme]
  cases s.lexemes[i]? with
  | none => rfl
  | some lexeme =>
    rcases lexeme with ⟨kind, text⟩
    cases kind <;> rfl

theorem masked_name (i : Nat) : s.masked.name? i = s.name? i := by
  simp only [name?, text, kind?, masked_lexeme]
  cases s.lexemes[i]? with
  | none => rfl
  | some lexeme =>
    rcases lexeme with ⟨kind, text⟩
    cases kind <;> rfl

theorem masked_typeWord (i : Nat) : s.masked.typeWord? i = s.typeWord? i := by
  simp only [typeWord?, text, kind?, masked_lexeme]
  cases s.lexemes[i]? with
  | none => rfl
  | some lexeme =>
    rcases lexeme with ⟨kind, text⟩
    cases kind <;> rfl

theorem masked_isParam (i : Nat) : s.masked.isParam i = s.isParam i := by
  unfold isParam
  rw [masked_kind]
  cases s.kind? i with
  | none => rfl
  | some kind => cases kind <;> rfl

theorem masked_number {i : Nat} (number : s.is i .number = true) : s.masked.text i = s.text i := by
  simp only [text, is, kind?, masked_lexeme] at number ⊢
  cases read : s.lexemes[i]? with
  | none => rfl
  | some lexeme =>
    rw [read] at number
    rcases lexeme with ⟨kind, spelling⟩
    obtain rfl : kind = .number := Option.some.inj (eq_of_beq number)
    rfl

/-- A statement reads like any other with the same placeholders masked. -/
theorem mirrors_of_masked {s t : Statement} (masked : t.masked = s.masked) : s.Mirrors id t where
  size := by rw [← masked_size t, masked, masked_size]
  is i kind noPosition noName := by
    rw [← t.masked_is i kind noPosition noName, masked, s.masked_is i kind noPosition noName]
  isParam i := by rw [← masked_isParam t, masked, masked_isParam]
  number i number := by
    have otherNumber : t.is i .number = true := by
      rw [← t.masked_is i _ (by simp) (by simp), masked, s.masked_is i _ (by simp) (by simp)]
      exact number
    rw [← t.masked_number otherNumber, masked, s.masked_number number]
  isKeyword i keyword := by rw [← masked_isKeyword t, masked, masked_isKeyword]
  name i := by rw [← masked_name t, masked, masked_name, Option.map_id_fun, id_eq]
  typeWord i := by rw [← masked_typeWord t, masked, masked_typeWord]
  pairs := by
    change t.masked.pairs = s.masked.pairs
    rw [masked]
  around := by
    change t.masked.around = s.masked.around
    rw [masked]

end Statement

end AnnotatedSql
