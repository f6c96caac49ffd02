import AnnotatedSql.Proofs.Resolution.Mirrored
import AnnotatedSql.Proofs.Token.Recasing
import Mathlib.Data.List.Pairwise

/-!
# Statements with unquoted words in small letters

Keywords and type names are compared without regard to case, so a statement reads like the one in
which every unquoted word is in small letters. In a schema whose names are told apart by more than
their case, no lookup notices the difference.
-/

namespace AnnotatedSql

/-- The name as it is held against others: in small letters unless it was quoted. -/
def Name.folded (name : Name) : Name :=
  if name.exact then name else { name with text := foldCase name.text }

@[simp] theorem Name.folded_exact (name : Name) : name.folded.exact = name.exact := by
  unfold folded
  split <;> rfl

/-! ## Statements -/

namespace Statement

variable (found : List Lexeme) (i : Nat)

theorem kind_folded :
    (ofLexemes (found.map Lexeme.folded)).kind? i = (ofLexemes found).kind? i := by
  simp only [kind?, ofLexemes, List.getElem?_toArray, List.getElem?_map, Option.map_map]
  congr 1
  exact funext Lexeme.folded_kind

theorem text_folded_of_ident (word : (ofLexemes found).kind? i = some .ident) :
    (ofLexemes (found.map Lexeme.folded)).text i = foldCase ((ofLexemes found).text i) := by
  simp only [kind?, text, ofLexemes, List.getElem?_toArray, List.getElem?_map] at word ⊢
  cases listed : found[i]? with
  | none =>
    rw [listed] at word
    cases word
  | some lexeme =>
    rw [listed] at word
    have kind : lexeme.kind = .ident := Option.some.inj word
    simp [Lexeme.folded, kind]

theorem text_folded_of_ne (other : (ofLexemes found).kind? i ≠ some .ident) :
    (ofLexemes (found.map Lexeme.folded)).text i = (ofLexemes found).text i := by
  simp only [kind?, text, ofLexemes, List.getElem?_toArray, List.getElem?_map] at other ⊢
  cases listed : found[i]? with
  | none => rfl
  | some lexeme =>
    rw [listed] at other
    have kind : lexeme.kind ≠ .ident := fun same => other (congrArg some same)
    simp [Lexeme.folded_of_ne kind]

/-- Unquoted words in small letters make no difference but to the names. -/
theorem mirrors_folded :
    (ofLexemes found).Mirrors Name.folded (ofLexemes (found.map Lexeme.folded)) where
  size := by simp [size, ofLexemes]
  is i kind _ _ := by
    unfold is
    rw [kind_folded]
  isParam i := by
    unfold isParam
    rw [kind_folded]
  isKeyword i keyword := by
    unfold isKeyword is
    rw [kind_folded]
    by_cases word : (ofLexemes found).kind? i = some .ident
    · rw [text_folded_of_ident found i word, equalFold, equalFold, foldCase_foldCase]
    · rw [beq_eq_false_iff_ne.mpr word]
      rfl
  number i number := by
    refine text_folded_of_ne found i fun word => ?_
    rw [is, word] at number
    cases number
  name i := by
    unfold name?
    rw [kind_folded]
    cases kind : (ofLexemes found).kind? i with
    | none => rfl
    | some token =>
      cases token with
      | ident => rw [text_folded_of_ident found i kind]; rfl
      | quotedIdent => rw [text_folded_of_ne found i (by simp [kind])]; rfl
      | _ => rfl
  typeWord i := by
    unfold typeWord?
    rw [kind_folded]
    cases kind : (ofLexemes found).kind? i with
    | none => rfl
    | some token =>
      cases token with
      | ident => rw [text_folded_of_ident found i kind]; simp
      | quotedIdent => rw [text_folded_of_ne found i (by simp [kind])]
      | _ => rfl
  pairs := by simp [ofLexemes, Function.comp_def, Lexeme.folded_kind]
  around := by simp [ofLexemes, Function.comp_def, Lexeme.folded_kind]

/-- The other key is the same: placeholders are no words. -/
theorem paramKey_folded :
    (ofLexemes (found.map Lexeme.folded)).paramKey? i = (ofLexemes found).paramKey? i := by
  simp only [paramKey?, ofLexemes, List.getElem?_toArray, List.getElem?_map, Option.bind_map]
  congr 1
  funext lexeme
  rcases lexeme with ⟨kind, text⟩
  cases kind <;> rfl

/-- Without quoted words all names are unquoted. -/
theorem allNames_unquoted {found : List Lexeme}
    (unquoted : ∀ lexeme ∈ found, lexeme.kind ≠ .quotedIdent) :
    (ofLexemes found).AllNames fun name => name.exact = false := by
  intro i name read
  unfold name? at read
  split at read
  · cases read
    rfl
  next quoted =>
    obtain ⟨lexeme, listed, kind⟩ := Option.map_eq_some_iff.mp quoted
    have member : lexeme ∈ found := List.mem_of_getElem? (by simpa [ofLexemes] using listed)
    exact absurd kind (unquoted lexeme member)
  · cases read

end Statement

/-! ## Schemas -/

/-- Names in the schema are told apart by more than their case: those of relations, those of the
columns of a relation and those of the fields of a composite. -/
structure Schema.ApartInCase (schema : Schema) : Prop where
  relations : NamesApart Relation.name schema.relations
  columns : ∀ relation ∈ schema.relations, NamesApart Column.name relation.columns
  fields : ∀ name fields, schema.Offers (.composite name fields) → NamesApart Field.name fields

/-- Composites are read from columns and declared types, so without any there no type is one. -/
theorem Schema.Offers.not_composite {schema : Schema} {type : DataType}
    (columns : ∀ relation ∈ schema.relations, ∀ column ∈ relation.columns,
      ∀ name fields, column.type ≠ .composite name fields)
    (types : ∀ declared ∈ schema.types, ∀ name fields, declared.type ≠ .composite name fields)
    (offered : schema.Offers type) (name : String) (fields : List (Field DataType)) :
    type ≠ .composite name fields := by
  induction offered generalizing name fields with
  | scalar _ => simp
  | column known member => exact columns _ known _ member name fields
  | declared member => exact types _ member name fields
  | array _ _ => simp
  | @field whole _ _ _ found ih =>
    cases whole with
    | composite name fields => exact absurd rfl (ih name fields)
    | _ => cases found

theorem findNamed_folded {α : Type} {nameOf : α → String} {items : List α}
    (apart : NamesApart nameOf items) (name : Name) :
    findNamed nameOf items name.folded.text name.folded.exact =
      findNamed nameOf items name.text name.exact := by
  cases exact : name.exact with
  | true =>
    unfold Name.folded
    rw [if_pos exact, exact]
  | false =>
    have text : name.folded.text = foldCase name.text := by
      unfold Name.folded
      rw [if_neg (by simp [exact])]
    rw [Name.folded_exact, exact, text, findNamed_eq_find apart, findNamed_eq_find apart]
    simp only [equalFold, foldCase_foldCase]

theorem DataType.field_eq_findNamed (name : String) (fields : List (Field DataType))
    (wanted : String) : (composite name fields).field? wanted =
      findNamed Field.name fields wanted false := by
  unfold field? findNamed
  dsimp only
  cases fields.find? (·.name == wanted) <;> rfl

/-- No lookup of an unquoted name notices its case. -/
theorem unnoticed_folded {schema : Schema} (apart : schema.ApartInCase) :
    Unnoticed Name.folded (fun name => name.exact = false) schema where
  relation name := findNamed_folded apart.relations name
  column relation known name := findNamed_folded (apart.columns relation known) name
  matchesAlias name other unquoted := by
    cases exact : other.exact with
    | true => simp [Name.matches, Name.folded, unquoted, exact, equalFold]
    | false => simp [Name.matches, Name.folded, unquoted, exact, equalFold]
  matchesRelation name unquoted relation _ := by
    simp [Name.matches, Name.folded, unquoted, equalFold]
  field type offered name := by
    cases type with
    | composite declared fields =>
      cases exact : name.exact with
      | true => simp [Name.folded, exact]
      | false =>
        have folded := findNamed_folded (apart.fields declared fields offered) name
        rw [Name.folded_exact, exact] at folded
        rw [DataType.field_eq_findNamed, DataType.field_eq_findNamed, folded]
    | _ => rfl

end AnnotatedSql
