import AnnotatedSql.Proofs.Header.Grammar
import AnnotatedSql.Proofs.Header.Relocation
import AnnotatedSql.Proofs.Token.Spelling
import Mathlib.Data.List.Nodup

/-!
# Reading the parts of a header

A parameter list is read exactly if it derives from the grammar and its names differ, a modifier
exactly if it derives and its count counts. The reader of modifiers adds each to those before it.
-/

namespace AnnotatedSql

theorem bind_ok {ε α β : Type} {first : Except ε α} {next : α → Except ε β} {x : α}
    (success : first = .ok x) : (first >>= next) = next x := by
  rw [success]
  rfl

/-! ## Parameter lists -/

/-- The tokens begin with what may stand between parentheses and a closing parenthesis. -/
def ReadsList (tokens names after : List Token) : Prop :=
  ∃ inner closing, tokens = inner ++ closing :: after ∧ DerivesList inner names ∧
    closing.kind = .parenClose

section Lists

variable {token : Token} {rest inner names after : List Token}

theorem derivesNames_cons : DerivesNames (token :: rest) names ↔ token.kind = .ident ∧
    (rest = [] ∧ names = [token] ∨ ∃ comma others tail, rest = comma :: others ∧
      comma.kind = .comma ∧ DerivesNames others tail ∧ names = token :: tail) := by
  constructor
  · intro derives
    cases derives with
    | one ident => exact ⟨ident, Or.inl ⟨rfl, rfl⟩⟩
    | more ident separates next =>
      exact ⟨ident, Or.inr ⟨_, _, _, rfl, separates, next, rfl⟩⟩
  · rintro ⟨ident, ⟨rfl, rfl⟩ | ⟨comma, others, tail, rfl, separates, next, rfl⟩⟩
    · exact .one ident
    · exact .more ident separates next

theorem derivesList_nil : DerivesList [] names ↔ names = [] := by
  constructor
  · intro derives
    generalize empty : ([] : List Token) = tokens at derives
    cases derives with
    | empty => rfl
    | plain derives =>
      subst empty
      cases derives
    | trailing => simp at empty
  · rintro rfl
    exact .empty

/-- A list is one name, or a name, a comma and a list. -/
theorem derivesList_cons : DerivesList (token :: rest) names ↔ token.kind = .ident ∧
    (rest = [] ∧ names = [token] ∨ ∃ comma others tail, rest = comma :: others ∧
      comma.kind = .comma ∧ DerivesList others tail ∧ names = token :: tail) := by
  constructor
  · intro derives
    generalize whole : token :: rest = tokens at derives
    cases derives with
    | empty => cases whole
    | plain derives =>
      rw [← whole, derivesNames_cons] at derives
      obtain ⟨ident, last | ⟨comma, others, tail, rfl, separates, next, rfl⟩⟩ := derives
      · exact ⟨ident, Or.inl last⟩
      · exact ⟨ident, Or.inr ⟨comma, others, tail, rfl, separates, .plain next, rfl⟩⟩
    | @trailing tokens _ comma derives ends =>
      cases tokens with
      | nil => cases derives
      | cons first tokens =>
        cases whole
        rw [derivesNames_cons] at derives
        obtain ⟨ident, ⟨rfl, rfl⟩ | ⟨next, others, tail, rfl, separates, names, rfl⟩⟩ := derives
        · exact ⟨ident, Or.inr ⟨comma, [], [], rfl, ends, .empty, rfl⟩⟩
        · exact ⟨ident, Or.inr ⟨next, _, tail, rfl, separates, .trailing names ends, rfl⟩⟩
  · rintro ⟨ident, ⟨rfl, rfl⟩ | ⟨comma, others, tail, rfl, separates, next, rfl⟩⟩
    · exact .plain (.one ident)
    · cases next with
      | empty => exact .trailing (.one ident) separates
      | plain derives => exact .plain (.more ident separates derives)
      | trailing derives ends => exact .trailing (.more ident separates derives) ends

theorem not_readsList_nil : ¬ReadsList [] names after := by
  rintro ⟨inner, closing, whole, _⟩
  cases inner <;> cases whole

theorem readsList_cons : ReadsList (token :: rest) names after ↔
    token.kind = .parenClose ∧ names = [] ∧ after = rest ∨
    token.kind = .ident ∧ ∃ next others, rest = next :: others ∧
      (next.kind = .parenClose ∧ names = [token] ∧ after = others ∨
        next.kind = .comma ∧ ∃ tail, ReadsList others tail after ∧ names = token :: tail) := by
  constructor
  · rintro ⟨inner, closing, whole, derives, closes⟩
    cases inner with
    | nil =>
      cases whole
      exact Or.inl ⟨closes, derivesList_nil.mp derives, rfl⟩
    | cons first inner =>
      cases whole
      rw [derivesList_cons] at derives
      obtain ⟨ident, ⟨rfl, rfl⟩ | ⟨comma, others, tail, rfl, separates, next, rfl⟩⟩ := derives
      · exact Or.inr ⟨ident, closing, after, rfl, Or.inl ⟨closes, rfl, rfl⟩⟩
      · exact Or.inr ⟨ident, comma, _, rfl,
          Or.inr ⟨separates, tail, ⟨others, closing, rfl, next, closes⟩, rfl⟩⟩
  · rintro (⟨closes, rfl, rfl⟩ | ⟨ident, next, others, rfl, further⟩)
    · exact ⟨[], token, rfl, .empty, closes⟩
    · rcases further with ⟨closes, rfl, rfl⟩ | ⟨separates, tail, further, rfl⟩
      · exact ⟨[token], next, rfl, .plain (.one ident), closes⟩
      · obtain ⟨inner, closing, rfl, derives, closes⟩ := further
        refine ⟨token :: next :: inner, closing, rfl, ?_, closes⟩
        exact derivesList_cons.mpr ⟨ident, Or.inr ⟨next, inner, tail, rfl, separates, derives, rfl⟩⟩

/-- A name that is not found among those before it differs from them. -/
theorem nodup_cons_of_find {earlier : List Token}
    (new : earlier.reverse.find? (·.text == token.text) = none)
    (distinct : (earlier.map (·.text)).Nodup) : ((token :: earlier).map (·.text)).Nodup := by
  rw [List.map_cons, List.nodup_cons]
  refine ⟨fun repeated => ?_, distinct⟩
  obtain ⟨other, member, same⟩ := List.mem_map.mp repeated
  have differs := List.find?_eq_none.mp new other (List.mem_reverse.mpr member)
  exact differs (by simpa using same)

theorem not_nodup_of_find {earlier : List Token} {first : Token}
    (repeated : earlier.reverse.find? (·.text == token.text) = some first) :
    ¬((earlier.reverse ++ token :: rest).map (·.text)).Nodup := by
  intro distinct
  rw [List.map_append, List.nodup_append] at distinct
  have same : first.text = token.text := by simpa using List.find?_some repeated
  refine distinct.2.2 first.text ?_ token.text (by simp) same
  exact List.mem_map_of_mem (List.mem_of_find?_eq_some repeated)

/-- A list is read if it is one and its names differ. -/
theorem readList_eq_ok {opening : Span} {earlier tokens found : List Token}
    (distinct : (earlier.map (·.text)).Nodup) :
    Header.readList opening earlier tokens = .ok (found, after) ↔
      ∃ names, ReadsList tokens names after ∧ found = earlier.reverse ++ names ∧
        (found.map (·.text)).Nodup := by
  fun_induction Header.readList opening earlier tokens with
  | case1 => simp [not_readsList_nil]
  | case2 earlier token rest closes =>
    have reversed : (earlier.reverse.map (·.text)).Nodup := by
      rwa [List.map_reverse, List.nodup_reverse]
    simp only [readsList_cons, closes, reduceCtorEq, false_and, or_false, true_and]
    constructor
    · rintro same
      cases same
      exact ⟨[], ⟨rfl, rfl⟩, (List.append_nil _).symm, reversed⟩
    · rintro ⟨_, ⟨rfl, rfl⟩, rfl, _⟩
      rw [List.append_nil]
  | case3 earlier token rest ident first repeated =>
    simp only [reduceCtorEq, false_iff]
    rintro ⟨names, reads, rfl, different⟩
    rw [readsList_cons, ident] at reads
    obtain ⟨impossible, _⟩ | ⟨_, next, others, rfl, ⟨_, rfl, _⟩ | ⟨_, tail, _, rfl⟩⟩ := reads
    · cases impossible
    · exact not_nodup_of_find repeated different
    · exact not_nodup_of_find repeated different
  | case4 earlier token ident new => simp [readsList_cons, ident]
  | case5 earlier token ident new comma rest separates ih =>
    rw [ih (nodup_cons_of_find new distinct)]
    simp only [readsList_cons, ident, reduceCtorEq, false_and, false_or, true_and,
      List.cons.injEq]
    constructor
    · rintro ⟨names, reads, rfl, different⟩
      exact ⟨token :: names, ⟨comma, rest, ⟨rfl, rfl⟩, Or.inr ⟨separates, names, reads, rfl⟩⟩,
        by simp, different⟩
    · rintro ⟨_, ⟨_, _, ⟨rfl, rfl⟩, ⟨impossible, _⟩ | ⟨_, names, reads, rfl⟩⟩, rfl, different⟩
      · rw [separates] at impossible
        cases impossible
      · exact ⟨names, reads, by simp, different⟩
  | case6 earlier token ident new closing rest closes =>
    have different : ((token :: earlier).reverse.map (·.text)).Nodup := by
      rw [List.map_reverse, List.nodup_reverse]
      exact nodup_cons_of_find new distinct
    simp only [readsList_cons, ident, reduceCtorEq, false_and, false_or,
      true_and, List.cons.injEq]
    constructor
    · rintro same
      cases same
      exact ⟨[token], ⟨closing, _, ⟨rfl, rfl⟩, Or.inl ⟨closes, rfl, rfl⟩⟩, by simp, different⟩
    · rintro ⟨_, ⟨_, _, ⟨rfl, rfl⟩, ⟨_, rfl, rfl⟩ | ⟨impossible, _⟩⟩, rfl, _⟩
      · rw [List.reverse_cons]
      · rw [closes] at impossible
        cases impossible
  | case7 earlier token ident new next rest noComma noClose =>
    simp only [reduceCtorEq, false_iff]
    rintro ⟨names, reads, _⟩
    rw [readsList_cons, ident] at reads
    obtain ⟨impossible, _⟩ | ⟨_, _, _, same, ⟨closes, _⟩ | ⟨separates, _⟩⟩ := reads
    · cases impossible
    · cases same
      exact noClose closes
    · cases same
      exact noComma separates
  | case8 earlier token rest noClose noIdent =>
    simp only [reduceCtorEq, false_iff]
    rintro ⟨names, reads, _⟩
    rw [readsList_cons] at reads
    obtain ⟨closes, _⟩ | ⟨ident, _⟩ := reads
    · exact noClose closes
    · exact noIdent ident

end Lists

/-! ## Modifiers -/

namespace ModifierForm

/-- What the modifier says. -/
def kind : ModifierForm → MarkerKind
  | exact => .exact
  | optional argument => .optional (argument.map Lexeme.optionalKind)

/-- The argument is no number, or one that counts. -/
def Counts (form : ModifierForm) : Prop :=
  ∀ argument, form.argument? = some argument → argument.kind = .number → argument.IsCount

theorem counts_exact : exact.Counts := fun _ none => nomatch none

theorem counts_empty : (optional none).Counts := fun _ none => nomatch none

theorem counts_argument {argument : Lexeme} : (optional (some argument)).Counts ↔
    (argument.kind = .number → argument.IsCount) := by
  constructor
  · exact fun counts => counts argument rfl
  · rintro counts _ same
    cases same
    exact counts

end ModifierForm

def WrittenModifier.marker (written : WrittenModifier) : Marker :=
  ⟨written.form.kind, written.span⟩

section Modifiers

variable {opening token : Token} {tokens rest after inner : List Token} {marker : Marker}

/-- The numbers among the tokens are spelled as numbers. -/
def NumbersSpelled (tokens : List Token) : Prop :=
  ∀ token ∈ tokens, token.kind = .number → Lexer.number.Matches token.text.toList

theorem NumbersSpelled.of_append {a b : List Token} (spelled : NumbersSpelled (a ++ b)) :
    NumbersSpelled b := fun token member => spelled token (List.mem_append_right a member)

/-- What may stand between the opening token and the closing brace of a modifier. -/
inductive ModifierForm.Inside : TokenKind → List Token → ModifierForm → Prop
  | exact : Inside .exactOpen [] .exact
  | empty : Inside .optionalOpen [] (.optional none)
  | argument {token : Token} (isArgument : token.kind = .ident ∨ token.kind = .number) :
      Inside .optionalOpen [token] (.optional (some token.toLexeme))

theorem ModifierForm.inside_nil {form : ModifierForm} :
    form.Inside .optionalOpen [] ↔ form = .optional none := by
  constructor
  · intro inside
    cases inside
    rfl
  · rintro rfl
    exact .empty

theorem ModifierForm.inside_one {form : ModifierForm} : form.Inside .optionalOpen [token] ↔
    (token.kind = .ident ∨ token.kind = .number) ∧ form = .optional (some token.toLexeme) := by
  constructor
  · intro inside
    cases inside with
    | argument isArgument => exact ⟨isArgument, rfl⟩
  · rintro ⟨isArgument, rfl⟩
    exact .argument isArgument

theorem ModifierForm.not_inside_more {form : ModifierForm} :
    ¬form.Inside .optionalOpen (opening :: token :: rest) := nofun

theorem readArgument_eq_ok {argument : Option OptionalKind} (spelled : NumbersSpelled inner) :
    Header.readArgument inner = .ok argument ↔ ∃ form : ModifierForm,
      form.Inside .optionalOpen inner ∧ form.Counts ∧ form.kind = .optional argument := by
  fun_cases Header.readArgument inner with
  | case1 =>
    simp [ModifierForm.inside_nil, ModifierForm.counts_empty, ModifierForm.kind, eq_comm]
  | case2 token ident =>
    have said : token.toLexeme.optionalKind = .named token.text :=
      Lexeme.optionalKind_name (by simp [ident])
    simp [ModifierForm.inside_one, ident, ModifierForm.counts_argument, ModifierForm.kind, said,
      eq_comm]
  | case3 token isNumber count read =>
    obtain ⟨whole, small, rfl⟩ :=
      (Lexer.numeral_of_number (spelled token List.mem_cons_self isNumber)).mp read
    have counts : token.toLexeme.IsCount := ⟨whole, small⟩
    simp [ModifierForm.inside_one, isNumber, ModifierForm.counts_argument, counts,
      ModifierForm.kind, Lexeme.optionalKind_number isNumber, eq_comm]
  | case4 token isNumber unread =>
    have noCount : ¬token.toLexeme.IsCount := fun ⟨whole, small⟩ => by
      have read := (Lexer.numeral_of_number (spelled token List.mem_cons_self isNumber)).mpr
        ⟨whole, small, rfl⟩
      rw [unread] at read
      cases read
    simp [ModifierForm.inside_one, isNumber, ModifierForm.counts_argument, noCount]
  | case5 token noIdent noNumber =>
    have noArgument : ¬(token.kind = .ident ∨ token.kind = .number) :=
      fun isArgument => isArgument.elim noIdent noNumber
    simp [ModifierForm.inside_one, noArgument]
  | case6 => simp [ModifierForm.not_inside_more]

/-- The first closing brace ends a modifier. -/
theorem span_eq_of_closes {closing : Token} (inside : ∀ token ∈ inner, token.kind ≠ .braceClose)
    (closes : closing.kind = .braceClose) :
    (inner ++ closing :: after).span (fun token => token.kind != .braceClose) =
      (inner, closing :: after) := by
  rw [List.span_eq_takeWhile_dropWhile]
  have keeps : ∀ token ∈ inner, (token.kind != .braceClose) = true := by
    simpa using inside
  rw [List.takeWhile_append_of_pos keeps, List.dropWhile_append_of_pos keeps]
  simp [closes]

variable {written : WrittenModifier} {form : ModifierForm}

theorem ModifierForm.Inside.noBrace {kind : TokenKind} (inside : form.Inside kind inner) :
    ∀ token ∈ inner, token.kind ≠ .braceClose := by
  cases inside with
  | argument isArgument =>
    intro token member
    rw [List.mem_singleton.mp member]
    rcases isArgument with same | same <;> simp [same]
  | _ => simp

theorem derivesModifier_iff : DerivesModifier tokens written ↔ ∃ opening inner closing form,
    tokens = opening :: inner ++ [closing] ∧ form.Inside opening.kind inner ∧
      closing.kind = .braceClose ∧ written = ⟨form, ⟨opening.span.start, closing.span.stop⟩⟩ := by
  constructor
  · intro derives
    cases derives with
    | exact opens closes => exact ⟨_, [], _, _, rfl, opens ▸ .exact, closes, rfl⟩
    | empty opens closes => exact ⟨_, [], _, _, rfl, opens ▸ .empty, closes, rfl⟩
    | argument opens isArgument closes =>
      exact ⟨_, [_], _, _, rfl, opens ▸ .argument isArgument, closes, rfl⟩
  · rintro ⟨opening, inner, closing, form, rfl, inside, closes, rfl⟩
    generalize opens : opening.kind = kind at inside
    cases inside with
    | exact => exact .exact opens closes
    | empty => exact .empty opens closes
    | argument isArgument => exact .argument opens isArgument closes

/-- A modifier whose closing brace is found is read if the right thing stands before the brace. -/
theorem readMarker_closed {closing : Token} (spelled : NumbersSpelled inner)
    (opens : opening.kind = .optionalOpen ∨ opening.kind = .exactOpen)
    (noBrace : ∀ token ∈ inner, token.kind ≠ .braceClose) (closes : closing.kind = .braceClose) :
    Header.readMarker opening (inner ++ closing :: rest) = .ok (marker, after) ↔
      after = rest ∧ ∃ form : ModifierForm, form.Inside opening.kind inner ∧ form.Counts ∧
        marker = ⟨form.kind, ⟨opening.span.start, closing.span.stop⟩⟩ := by
  unfold Header.readMarker
  rw [span_eq_of_closes noBrace closes]
  dsimp only
  rcases opens with opens | opens
  · rw [opens, if_neg (by decide)]
    constructor
    · intro success
      obtain ⟨argument, read, same⟩ := bind_success success
      cases same
      obtain ⟨form, inside, counts, said⟩ := (readArgument_eq_ok spelled).mp read
      exact ⟨rfl, form, inside, counts, by rw [said]⟩
    · rintro ⟨rfl, form, inside, counts, rfl⟩
      have said : ∃ argument, form.kind = .optional argument := by
        cases inside <;> exact ⟨_, rfl⟩
      obtain ⟨argument, said⟩ := said
      rw [(readArgument_eq_ok spelled).mpr ⟨form, inside, counts, said⟩, said]
      rfl
  · rw [opens, if_pos (by decide)]
    cases inner with
    | nil =>
      constructor
      · intro same
        cases same
        exact ⟨rfl, _, .exact, ModifierForm.counts_exact, rfl⟩
      · rintro ⟨rfl, form, inside, _, rfl⟩
        cases inside
        rfl
    | cons token inner =>
      simp only [reduceCtorEq, false_iff]
      rintro ⟨_, _, inside, _⟩
      cases inside

theorem readMarker_unclosed (noBrace : ∀ token ∈ rest, token.kind ≠ .braceClose) :
    Header.readMarker opening rest = .error (.unterminated opening) := by
  have keeps : ∀ token ∈ rest, (token.kind != .braceClose) = true := by
    simpa using noBrace
  have nothing : rest.dropWhile (fun token => token.kind != .braceClose) = [] := by
    rw [← List.append_nil rest, List.dropWhile_append_of_pos keeps, List.dropWhile_nil]
  unfold Header.readMarker
  rw [List.span_eq_takeWhile_dropWhile, nothing]

theorem exists_closing (tokens : List Token) : (∀ token ∈ tokens, token.kind ≠ .braceClose) ∨
    ∃ inner closing after, tokens = inner ++ closing :: after ∧
      (∀ token ∈ inner, token.kind ≠ .braceClose) ∧ closing.kind = .braceClose := by
  induction tokens with
  | nil => simp
  | cons token tokens ih =>
    by_cases closes : token.kind = .braceClose
    · exact Or.inr ⟨[], token, tokens, rfl, by simp, closes⟩
    · rcases ih with noBrace | ⟨inner, closing, after, rfl, noBrace, found⟩
      · exact Or.inl (by simpa [closes] using noBrace)
      · exact Or.inr ⟨token :: inner, closing, after, rfl, by simpa [closes] using noBrace, found⟩

/-- A modifier is read if the tokens begin with one, and its count counts. -/
theorem readMarker_eq_ok (spelled : NumbersSpelled rest)
    (opens : opening.kind = .optionalOpen ∨ opening.kind = .exactOpen) :
    Header.readMarker opening rest = .ok (marker, after) ↔ ∃ tokens written,
      opening :: rest = tokens ++ after ∧ DerivesModifier tokens written ∧
        written.form.Counts ∧ marker = written.marker := by
  rcases exists_closing rest with noBrace | ⟨inner, closing, others, rfl, noBrace, closes⟩
  · rw [readMarker_unclosed noBrace]
    simp only [reduceCtorEq, false_iff]
    rintro ⟨_, written, whole, derives, _⟩
    obtain ⟨_, inner, closing, form, rfl, _, closes, _⟩ := derivesModifier_iff.mp derives
    cases whole
    exact noBrace closing (by simp) closes
  · have spelledInner : NumbersSpelled inner := fun token member => spelled token (by simp [member])
    rw [readMarker_closed spelledInner opens noBrace closes]
    constructor
    · rintro ⟨rfl, form, inside, counts, rfl⟩
      refine ⟨opening :: inner ++ [closing], ⟨form, _⟩, by simp, ?_, counts, rfl⟩
      exact derivesModifier_iff.mpr ⟨opening, inner, closing, form, rfl, inside, closes, rfl⟩
    · rintro ⟨_, written, whole, derives, counts, rfl⟩
      obtain ⟨first, middle, last, form, rfl, inside, ends, rfl⟩ := derivesModifier_iff.mp derives
      obtain ⟨rfl, whole⟩ := List.cons.inj whole
      -- both closing braces are the first one
      have split : inner ++ closing :: others = middle ++ last :: after := by simpa using whole
      have same := congrArg (List.span fun token => token.kind != .braceClose) split
      rw [span_eq_of_closes noBrace closes, span_eq_of_closes inside.noBrace ends] at same
      cases same
      exact ⟨rfl, form, inside, counts, rfl⟩

/-! ## Runs of modifiers -/

theorem DerivesModifier.opens (derives : DerivesModifier (token :: rest) written) :
    token.kind = .optionalOpen ∨ token.kind = .exactOpen := by
  cases derives with
  | exact opens _ => exact Or.inr opens
  | empty opens _ => exact Or.inl opens
  | argument opens _ _ => exact Or.inl opens

theorem DerivesModifier.length_pos (derives : DerivesModifier tokens written) :
    0 < tokens.length := by
  cases derives <;> simp

variable {modifiers : List WrittenModifier}

theorem derivesModifiers_nil : DerivesModifiers [] modifiers ↔ modifiers = [] := by
  constructor
  · intro derives
    generalize empty : ([] : List Token) = tokens at derives
    cases derives with
    | nil => rfl
    | cons first _ =>
      have positive := first.length_pos
      rw [(List.append_eq_nil_iff.mp empty.symm).1] at positive
      cases positive
  · rintro rfl
    exact .nil

theorem derivesModifiers_cons : DerivesModifiers (token :: rest) modifiers ↔
    ∃ tokens after written others, token :: rest = tokens ++ after ∧
      DerivesModifier tokens written ∧ DerivesModifiers after others ∧
        modifiers = written :: others := by
  constructor
  · intro derives
    generalize whole : token :: rest = tokens at derives
    cases derives with
    | nil => cases whole
    | cons first next => exact ⟨_, _, _, _, rfl, first, next, rfl⟩
  · rintro ⟨tokens, after, written, others, whole, first, next, rfl⟩
    rw [whole]
    exact .cons first next

/-- The modifiers are read one by one, and each is added to those before it. -/
theorem readMarkers_eq_ok {list : Option Span} {fuel : Nat} {earlier found : Modifiers}
    (enough : tokens.length ≤ fuel) (spelled : NumbersSpelled tokens) :
    Header.readMarkers list fuel earlier tokens = .ok found ↔ ∃ modifiers,
      DerivesModifiers tokens modifiers ∧ (∀ written ∈ modifiers, written.form.Counts) ∧
        (modifiers.map WrittenModifier.marker).foldlM (·.add list ·) earlier = .ok found := by
  induction fuel generalizing tokens earlier with
  | zero =>
    rw [List.length_eq_zero_iff.mp (Nat.le_zero.mp enough)]
    simp [Header.readMarkers, derivesModifiers_nil, pure, Except.pure]
  | succ fuel ih =>
    cases tokens with
    | nil => simp [Header.readMarkers, derivesModifiers_nil, pure, Except.pure]
    | cons token rest =>
      have spelledRest : NumbersSpelled rest := fun token member => spelled token (by simp [member])
      have shorter : ∀ {tokens after written}, token :: rest = tokens ++ after →
          DerivesModifier tokens written → after.length ≤ fuel ∧ NumbersSpelled after := by
        intro tokens after written whole derives
        rw [whole] at spelled enough
        have positive := derives.length_pos
        rw [List.length_append] at enough
        exact ⟨by omega, spelled.of_append⟩
      unfold Header.readMarkers
      by_cases opens : token.kind = .optionalOpen ∨ token.kind = .exactOpen
      · rw [if_pos (by simpa using opens)]
        constructor
        · intro success
          obtain ⟨⟨marker, after⟩, read, next⟩ := bind_success success
          obtain ⟨later, added, last⟩ := bind_success next
          obtain ⟨tokens, written, whole, derives, counts, rfl⟩ :=
            (readMarker_eq_ok spelledRest opens).mp read
          obtain ⟨enoughAfter, spelledAfter⟩ := shorter whole derives
          obtain ⟨others, next, countsAll, run⟩ := (ih enoughAfter spelledAfter).mp last
          refine ⟨written :: others, ?_, List.forall_mem_cons.mpr ⟨counts, countsAll⟩, ?_⟩
          · exact derivesModifiers_cons.mpr ⟨_, _, _, _, whole, derives, next, rfl⟩
          · rw [List.map_cons, List.foldlM_cons, added]
            exact run
        · rintro ⟨_, derives, countsAll, run⟩
          obtain ⟨tokens, after, written, others, whole, first, next, rfl⟩ :=
            derivesModifiers_cons.mp derives
          obtain ⟨counts, countsOthers⟩ := List.forall_mem_cons.mp countsAll
          rw [List.map_cons, List.foldlM_cons] at run
          obtain ⟨later, added, run⟩ := bind_success run
          obtain ⟨enoughAfter, spelledAfter⟩ := shorter whole first
          have read := (readMarker_eq_ok spelledRest opens).mpr
            ⟨tokens, written, whole, first, counts, rfl⟩
          have success := (ih enoughAfter spelledAfter).mpr ⟨others, next, countsOthers, run⟩
          exact (bind_ok read).trans ((bind_ok added).trans success)
      · rw [if_neg (by simpa using opens)]
        simp only [reduceCtorEq, false_iff]
        rintro ⟨_, derives, _⟩
        obtain ⟨tokens, after, written, _, whole, first, _⟩ := derivesModifiers_cons.mp derives
        cases tokens with
        | nil => exact absurd first.length_pos (by simp)
        | cons opening tokens =>
          cases whole
          exact opens first.opens

end Modifiers

end AnnotatedSql
