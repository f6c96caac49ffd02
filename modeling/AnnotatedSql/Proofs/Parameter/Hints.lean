import AnnotatedSql.Proofs.Parameter.Casts
import AnnotatedSql.Proofs.Parameter.Slots
import AnnotatedSql.Proofs.Schema.TypeText
import AnnotatedSql.Proofs.Token.Recasing

/-!
# Casts that agree

Binding compares the casts of a parameter by a canonical spelling, without a schema. Where casts
agree they stand for one type in every schema, or they are names in quotes that differ in the case
of letters and nothing else. The canonical spelling of a base type reads back as that base type, and
any other spelling is its own but for capitals.
-/

namespace AnnotatedSql

/-! ## Canonical spellings -/

theorem Scalar.lookup_sqlName (kind : Scalar) : spellings.lookup kind.sqlName = some kind := by
  cases kind <;> rfl

theorem sqlName_getLast (kind : Scalar) : kind.sqlName.toList.getLast? ≠ some ']' := by
  cases kind <;> decide

theorem toList_foldCase (text : List Char) :
    (foldCase (String.ofList text)).toList = text.map Char.toLower := by
  simp [foldCase]

/-- Folding the case of letters makes no character other than a letter. -/
theorem eq_of_toLower {c d : Char} (folds : c.toLower = d)
    (noLetter : d ∉ capitals.map Char.toLower) : c = d := by
  by_cases changes : c.toLower = c
  · rw [← changes, folds]
  · exact absurd (List.mem_map.mpr ⟨c, mem_capitals changes, folds⟩) noLetter

/-- A text begins with a quote exactly if it does in small letters. -/
theorem head_quote_iff (text : List Char) :
    (text.map Char.toLower).head? = some '"' ↔ text.head? = some '"' := by
  rw [List.head?_map, Option.map_eq_some_iff]
  constructor
  · rintro ⟨c, starts, folds⟩
    rwa [eq_of_toLower folds (by decide)] at starts
  · exact fun starts => ⟨'"', starts, rfl⟩

/-- Brackets can be told from what stands before them. -/
theorem append_brackets_inj {a b : List Char} {j k : Nat} (first : a.getLast? ≠ some ']')
    (second : b.getLast? ≠ some ']') (same : a ++ brackets j = b ++ brackets k) :
    a = b ∧ j = k := by
  induction j generalizing k with
  | zero =>
    cases k with
    | zero => exact ⟨List.append_cancel_right same, rfl⟩
    | succ k =>
      rw [brackets_succ, ← List.append_assoc] at same
      refine absurd ?_ first
      have last := congrArg List.getLast? same
      simpa [brackets] using last
  | succ j ih =>
    cases k with
    | zero =>
      rw [brackets_succ, ← List.append_assoc] at same
      refine absurd ?_ second
      have last := congrArg List.getLast? same.symm
      simpa [brackets] using last
    | succ k =>
      rw [brackets_succ, brackets_succ, ← List.append_assoc, ← List.append_assoc] at same
      obtain ⟨rfl, rfl⟩ := ih (List.append_cancel_right same)
      exact ⟨rfl, rfl⟩

namespace ElementText

variable {text other : List Char}

theorem ofSqlName (element : ElementText text) : Scalar.ofSqlName? (String.ofList text) =
    Scalar.spellings.lookup (foldCase (String.ofList text)) := by
  obtain ⟨last, stops, visible, _⟩ := element.ends
  rw [Scalar.ofSqlName?, trimmed, String.toList_ofList,
    trim_visible element.begins ⟨last, stops, visible⟩]

theorem canonicalElement_getLast (element : ElementText text) :
    (canonicalElement text).toList.getLast? ≠ some ']' := by
  unfold canonicalElement
  split
  next kind _ => exact sqlName_getLast kind
  next =>
    obtain ⟨last, stops, _, _, noBracket⟩ := element.ends
    rw [toList_foldCase, List.getLast?_map, stops]
    intro same
    exact noBracket (eq_of_toLower (Option.some.inj same) (by decide))

/-- The canonical spelling of a type text is that of its element, with its brackets. -/
theorem canonicalWithin (element : ElementText text) {depth fuel : Nat} (enough : depth ≤ fuel) :
    (canonicalWithin fuel (text ++ brackets depth)).toList =
      (canonicalElement text).toList ++ brackets depth := by
  induction depth generalizing fuel with
  | zero =>
    rw [brackets, List.replicate_zero, List.flatten_nil, List.append_nil, List.append_nil]
    cases fuel with
    | zero => rfl
    | succ fuel => rw [AnnotatedSql.canonicalWithin, element.withoutArraySuffix]
  | succ depth ih =>
    obtain ⟨less, rfl⟩ := Nat.exists_eq_add_of_le' (Nat.one_le_of_lt enough)
    rw [AnnotatedSql.canonicalWithin, brackets_succ, ← List.append_assoc,
      withoutArraySuffix_append]
    dsimp only
    rw [String.toList_append, ih (Nat.le_of_succ_le_succ enough), List.append_assoc]
    rfl

theorem canonicalType {name : String} (element : ElementText text) {depth : Nat}
    (spelled : name.toList = text ++ brackets depth) :
    (canonicalType name).toList = (canonicalElement text).toList ++ brackets depth := by
  unfold AnnotatedSql.canonicalType
  rw [spelled]
  refine element.canonicalWithin ?_
  rw [← String.length_toList, spelled, List.length_append]
  exact Nat.le_trans (length_brackets depth) (Nat.le_add_left _ _)

/-- Elements with one canonical spelling name one base type, or differ at most in case. -/
theorem of_canonicalElement (element : ElementText text) (elementToo : ElementText other)
    (same : canonicalElement text = canonicalElement other) :
    (∃ kind, Scalar.ofSqlName? (String.ofList text) = some kind ∧
      Scalar.ofSqlName? (String.ofList other) = some kind) ∨
      foldCase (String.ofList text) = foldCase (String.ofList other) := by
  -- The canonical spelling of a base type is a spelling of no other element.
  have named : ∀ {a : List Char} {kind : Scalar}, ElementText a →
      kind.sqlName = foldCase (String.ofList a) →
        Scalar.ofSqlName? (String.ofList a) = some kind := by
    intro a kind visible spelled
    rw [visible.ofSqlName, ← spelled, Scalar.lookup_sqlName]
  unfold canonicalElement at same
  cases first : Scalar.ofSqlName? (String.ofList text) with
  | some kind =>
    cases second : Scalar.ofSqlName? (String.ofList other) with
    | some kindToo =>
      rw [first, second] at same
      have readBack := Scalar.lookup_sqlName kind
      rw [show kind.sqlName = kindToo.sqlName from same, Scalar.lookup_sqlName] at readBack
      cases readBack
      exact Or.inl ⟨_, rfl, rfl⟩
    | none =>
      rw [first, second] at same
      rw [named elementToo same] at second
      cases second
  | none =>
    cases second : Scalar.ofSqlName? (String.ofList other) with
    | some kindToo =>
      rw [first, second] at same
      rw [named element same.symm] at first
      cases first
    | none =>
      rw [first, second] at same
      exact Or.inr same

end ElementText

/-! ## Names of types -/

/-- Two names in quotes that differ in the case of letters and in nothing else. -/
def QuotedApart (a b : String) : Prop :=
  a.toList.head? = some '"' ∧ b.toList.head? = some '"' ∧ a ≠ b ∧ equalFold a b = true

instance (a b : String) : Decidable (QuotedApart a b) := inferInstanceAs (Decidable (_ ∧ _))

/-- An element as it is read in a cast: in quotes as it is written, or else in small letters. -/
structure CastElement (text : List Char) : Prop where
  element : ElementText text
  cased : text.head? = some '"' ∨ text.head? ≠ some '"' ∧ text.map Char.toLower = text

/-- A type name as it is read in a cast. -/
def CastName (name : String) : Prop :=
  ∃ text depth, CastElement text ∧ name.toList = text ++ brackets depth

/-- In any schema, names with one canonical spelling stand for one type, or for types whose names in
quotes differ in case. -/
theorem CastName.agree {a b : String} (first : CastName a) (second : CastName b)
    (same : canonicalType a = canonicalType b) :
    (∀ schema : Schema, schema.typeNamed? a = schema.typeNamed? b) ∨ QuotedApart a b := by
  obtain ⟨text, depth, ⟨element, cased⟩, spelled⟩ := first
  obtain ⟨other, depthToo, ⟨elementToo, casedToo⟩, spelledToo⟩ := second
  have elements := element.canonicalType spelled
  rw [same, elementToo.canonicalType spelledToo] at elements
  obtain ⟨canonical, rfl⟩ := append_brackets_inj elementToo.canonicalElement_getLast
    element.canonicalElement_getLast elements
  rcases element.of_canonicalElement elementToo (String.toList_inj.mp canonical).symm with
    ⟨kind, named, namedToo⟩ | folded
  · left
    intro schema
    rw [schema.typeNamed?_brackets element spelled,
      schema.typeNamed?_brackets elementToo spelledToo, Schema.baseType?, Schema.baseType?, named,
      namedToo]
  · have small : text.map Char.toLower = other.map Char.toLower := by
      rw [← toList_foldCase, ← toList_foldCase, folded]
    by_cases alike : text = other
    · left
      intro schema
      rw [String.toList_inj.mp (spelled.trans (alike ▸ spelledToo.symm))]
    · right
      have quotes : text.head? = some '"' ↔ other.head? = some '"' := by
        rw [← head_quote_iff, small, head_quote_iff]
      have quoted : text.head? = some '"' := by
        rcases cased with quoted | ⟨plain, lower⟩
        · exact quoted
        · have lowerToo := (casedToo.resolve_left (mt quotes.mpr plain)).2
          exact absurd (lower.symm.trans (small.trans lowerToo)) alike
      refine ⟨by simp [spelled, quoted], by simp [spelledToo, quotes.mp quoted], ?_, ?_⟩
      · intro equal
        rw [equal, spelledToo] at spelled
        exact alike (List.append_cancel_right spelled).symm
      · rw [equalFold_iff, ← String.toList_inj, ← String.ofList_toList (s := a),
          ← String.ofList_toList (s := b), toList_foldCase, toList_foldCase, spelled, spelledToo,
          List.map_append, List.map_append, small]

/-! ## Type names in a body -/

/-- The characters of words in small letters are visible, and no quotes or brackets. -/
theorem wordChar_toLower {c : Char} (inWord : Rule.wordChar c = true) :
    isBlank c.toLower = false ∧ c.toLower ≠ '"' ∧ c.toLower ≠ ')' ∧ c.toLower ≠ ']' := by
  have listed : c ∈ Lexer.letters ++ Lexer.digits := by
    rw [List.mem_append]
    simp only [Rule.wordChar, Char.isAlphanum, Bool.or_eq_true] at inWord
    rcases inWord with (alpha | digit) | underscore
    · exact Or.inl (Lexer.mem_letters (by simp [Rule.letter, alpha]))
    · exact Or.inr (Lexer.mem_digits digit)
    · exact Or.inl (Lexer.mem_letters (by simp [Rule.letter, underscore]))
  have plain : ((Lexer.letters ++ Lexer.digits).all fun c => !isBlank c.toLower &&
      c.toLower != '"' && c.toLower != ')' && c.toLower != ']') = true := by decide +kernel
  simpa [and_assoc] using List.all_eq_true.mp plain c listed

theorem castElement_word {word : List Char} (isWord : Rule.word.Matches word) :
    CastElement (word.map Char.toLower) := by
  obtain ⟨nonempty, inWord⟩ := Rule.all_wordChar isWord
  rw [List.all_eq_true] at inWord
  obtain ⟨visible, noQuote, _⟩ := wordChar_toLower (inWord _ (List.head_mem nonempty))
  obtain ⟨visibleToo, _, noGroup, noBracket⟩ :=
    wordChar_toLower (inWord _ (List.getLast_mem nonempty))
  have starts : (word.map Char.toLower).head? = some (word.head nonempty).toLower := by
    rw [List.head?_map, List.head?_eq_some_head nonempty, Option.map_some]
  have stops : (word.map Char.toLower).getLast? = some (word.getLast nonempty).toLower := by
    rw [List.getLast?_map, List.getLast?_eq_some_getLast nonempty, Option.map_some]
  refine ⟨⟨⟨_, starts, visible⟩, _, stops, visibleToo, noGroup, noBracket⟩, Or.inr ⟨?_, by simp⟩⟩
  rw [starts]
  exact fun same => noQuote (Option.some.inj same)

theorem closesQuote_getLast {quote : Char} {pending : Bool} {text : List Char}
    (closed : Rule.closesQuote quote pending text = true) :
    (quote :: text).getLast? = some quote := by
  induction text generalizing pending with
  | nil => rfl
  | cons c text ih =>
    unfold Rule.closesQuote at closed
    split at closed
    next same =>
      rw [List.getLast?_cons_cons, eq_of_beq same]
      exact ih closed
    next other =>
      have closes := ih (Bool.and_eq_true_iff.mp closed).2
      cases text with
      | nil => simp [Rule.closesQuote] at closed
      | cons d text =>
        rw [List.getLast?_cons_cons] at closes
        rwa [List.getLast?_cons_cons, List.getLast?_cons_cons]

theorem castElement_quoted {text : List Char} (quoted : (Rule.quoted '"').Matches text) :
    CastElement text := by
  cases text with
  | nil => exact absurd quoted Pattern.not_matches_char_seq_nil
  | cons c text =>
    obtain ⟨rfl, closed⟩ := Rule.matches_quoted.mp quoted
    have last := closesQuote_getLast closed
    exact ⟨⟨⟨'"', rfl, by decide⟩, '"', last, by decide, by decide, by decide⟩, Or.inl rfl⟩

namespace Statement

variable {s : Statement}

/-- Following the dots of a type name leads from part to part. -/
theorem followTypeDots_of (holds : String → Prop)
    (parts : ∀ i word, s.typeWord? i = some word → holds word) {fuel next : Nat} {word : String}
    (first : holds word) : holds (s.followTypeDots fuel word next).1 := by
  induction fuel generalizing word next with
  | zero => exact first
  | succ fuel ih =>
    unfold followTypeDots
    split
    · split
      next part found => exact ih (parts _ _ found)
      next => exact first
    · exact first

/-- Completing a type name leaves it or gives one of three others. -/
theorem completeType_of (holds : String → Prop) {next : Nat} {word : String}
    (double : holds "double precision") (varchar : holds "varchar")
    (timestamptz : holds "timestamptz") (alone : holds word) :
    holds (s.completeType word next).1 := by
  unfold completeType
  split_ifs <;> assumption

end Statement

namespace Query

variable {query : Query} {i : Nat}

theorem castElement_of_typeWord {word : String}
    (found : query.statement.typeWord? i = some word) : CastElement word.toList := by
  unfold Statement.typeWord? Statement.kind? Statement.text at found
  cases read : query.statement.lexemes[i]? with
  | none => simp [read] at found
  | some lexeme =>
    have listed := mem_lexemes_of_getElem read
    rw [read] at found
    cases kind : lexeme.kind with
    | ident =>
      simp only [Option.map_some, kind, Option.getD_some, Option.some.injEq] at found
      have written := castElement_word (Lexer.matches_word_of_ident listed kind)
      rwa [← toList_foldCase, String.ofList_toList, found] at written
    | quotedIdent =>
      simp only [Option.map_some, kind, Option.getD_some, Option.some.injEq] at found
      have only : Rule.all.filter (·.reading = .token .quotedIdent) =
          [⟨.token .quotedIdent, Rule.quoted '"'⟩] := rfl
      rw [← kind] at only
      rw [← found]
      exact castElement_quoted
        (Lexer.matches_of_mem_lexemes listed (by simp [kind]) (by simp [kind]) only)
    | _ => simp [kind] at found

/-- A type name that is read in a query is one as casts write it. -/
theorem castName_of_typeName {type : TypeName}
    (found : query.statement.typeName? i = some type) : CastName type.text := by
  obtain ⟨first, begins, found⟩ := Option.bind_eq_some_iff.mp found
  cases found
  have words : CastElement (query.statement.completeType (query.statement.followTypeDots
      query.statement.size first (i + 1)).1 (query.statement.followTypeDots
        query.statement.size first (i + 1)).2).1.toList :=
    Statement.completeType_of (fun word => CastElement word.toList)
      ⟨⟨⟨'d', rfl, rfl⟩, 'n', rfl, rfl, by decide, by decide⟩, Or.inr ⟨by decide, by decide⟩⟩
      ⟨⟨⟨'v', rfl, rfl⟩, 'r', rfl, rfl, by decide, by decide⟩, Or.inr ⟨by decide, by decide⟩⟩
      ⟨⟨⟨'t', rfl, rfl⟩, 'z', rfl, rfl, by decide, by decide⟩, Or.inr ⟨by decide, by decide⟩⟩
      (Statement.followTypeDots_of (fun word => CastElement word.toList)
        (fun _ _ => castElement_of_typeWord) (castElement_of_typeWord begins))
  exact ⟨_, _, words, toList_append_brackets _ _⟩

end Query

/-! ## Casts of one parameter -/

/-- Casts of one key that do not agree are reported. -/
theorem Binding.conflict_reported {style : BindingStyle} {s : Statement} {key : ParamKey}
    {i j : Nat} {first second : TypeName} (stands : s.paramKey? i = some key)
    (standsToo : s.paramKey? j = some key) (cast : s.castHint? i = some first)
    (castToo : s.castHint? j = some second)
    (differ : canonicalType first.text ≠ canonicalType second.text) :
    ∃ finding ∈ findings style s, finding.kind = .conflictingTypeHints := by
  have found : (s.hint? key).isSome = true :=
    List.findSome?_isSome_iff.mpr ⟨i, Statement.mem_occurrences.mpr stands, by simp [cast]⟩
  obtain ⟨leading, leads⟩ := Option.isSome_iff_exists.mp found
  have reported : ∀ {k hint}, s.paramKey? k = some key → s.castHint? k = some hint →
      canonicalType hint.text ≠ canonicalType leading.text →
        ∃ finding ∈ findings style s, finding.kind = .conflictingTypeHints := by
    intro k hint stands cast differs
    have inside := List.mem_range.mpr (Statement.lt_size_of_paramKey stands)
    let finding : Finding :=
      ⟨.conflictingHints key leading.text hint.text leading.place, hint.place⟩
    have found : finding ∈ placeholderFindings s k := by
      unfold placeholderFindings
      rw [if_pos (Statement.isParam_of_paramKey stands), stands, cast]
      dsimp only
      rw [leads]
      simp [differs, finding]
    refine ⟨finding, ?_, rfl⟩
    simp only [findings, List.mem_append, List.mem_flatMap]
    exact Or.inl (Or.inl (Or.inl ⟨k, inside, found⟩))
  by_cases agrees : canonicalType first.text = canonicalType leading.text
  · exact reported standsToo castToo fun agreesToo => differ (agrees.trans agreesToo.symm)
  · exact reported stands cast agrees

namespace Query

/-- One of the tokens is a placeholder cast to a type of the given name, which stands for the type
in the schema. -/
def CastAmong (query : Query) (schema : Schema) (tokens : List Nat) (name : String)
    (type : DataType) : Prop :=
  ∃ i ∈ tokens, (query.statement.castHint? i).map TypeName.text = some name ∧
    schema.typeNamed? name = some type

/-- All casts of a parameter stand for one type, but for names in quotes that differ in the case of
letters; casts to different types are reported. -/
theorem casts_of_one_type (query : Query) (schema : Schema) {first second : String}
    {type other : DataType} (apart : ¬QuotedApart first second) :
    (∀ parameters, query.bind.value = some parameters → ∀ p ∈ parameters,
        query.CastAmong schema p.occurrences first type →
        query.CastAmong schema p.occurrences second other → type = other) ∧
      ∀ key, query.CastAmong schema (query.statement.occurrences key) first type →
        query.CastAmong schema (query.statement.occurrences key) second other → type ≠ other →
        ∃ report ∈ query.reports query.bind.findings, report.kind = .conflictingTypeHints := by
  -- Whatever the key, casts of different types have different canonical spellings.
  have conflict : ∀ key, query.CastAmong schema (query.statement.occurrences key) first type →
      query.CastAmong schema (query.statement.occurrences key) second other → type ≠ other →
        ∃ finding ∈ query.bind.findings, finding.kind = .conflictingTypeHints := by
    rintro key ⟨i, occurs, named, known⟩ ⟨j, occursToo, namedToo, knownToo⟩ different
    obtain ⟨hint, cast, rfl⟩ := Option.map_eq_some_iff.mp named
    obtain ⟨hintToo, castToo, rfl⟩ := Option.map_eq_some_iff.mp namedToo
    have matched : query.statement.Matched := Statement.ofLexemes_matched _
    refine Binding.conflict_reported (Statement.mem_occurrences.mp occurs)
      (Statement.mem_occurrences.mp occursToo) cast castToo fun same => ?_
    have read := ((Statement.castHint_iff matched).mp cast).1
    have readToo := ((Statement.castHint_iff matched).mp castToo).1
    rcases (castName_of_typeName read).agree (castName_of_typeName readToo) same with one | two
    · rw [one, knownToo] at known
      exact different (Option.some.inj known).symm
    · exact apart two
  refine ⟨fun parameters accepted p member cast castToo => ?_, fun key cast castToo different => ?_⟩
  · obtain ⟨accepts, rfl⟩ := Binding.bind_value_iff.mp accepted
    rw [(Binding.table_entry member).1] at cast castToo
    by_contra different
    obtain ⟨finding, found, kind⟩ := conflict p.key cast castToo different
    have harmless := accepts.notError found
    rw [Finding.isError, kind] at harmless
    cases harmless
  · obtain ⟨finding, found, kind⟩ := conflict key cast castToo different
    exact ⟨_, List.mem_map_of_mem found, kind⟩

/-- Two spellings of one array type agree, and two types are reported. -/
theorem casts_of_one_type_arrays :
    let agreeing : Query := ⟨0, ⟨⟨"p", .implicit, .many, false⟩, ⟨4, 5⟩, [], none⟩, ⟨3, 5⟩,
      "select :x::int4[], :x::INTEGER[];\n".toList, ⟨6, 40⟩⟩
    let conflicting : Query := ⟨0, ⟨⟨"q", .implicit, .many, false⟩, ⟨44, 45⟩, [], none⟩, ⟨43, 45⟩,
      "select :x::int4, :x::text;\n".toList, ⟨46, 73⟩⟩
    (parseModule 0 "_stream" ("--! p\nselect :x::int4[], :x::INTEGER[];\n" ++
        "--! q\nselect :x::int4, :x::text;\n").toList).queries = [agreeing, conflicting] ∧
      (∃ parameters, agreeing.bind.value = some parameters ∧ ∃ p ∈ parameters,
        agreeing.CastAmong {} p.occurrences "int4[]" (.array (.scalar .int4)) ∧
          agreeing.CastAmong {} p.occurrences "integer[]" (.array (.scalar .int4))) ∧
      ∃ report ∈ conflicting.reports conflicting.bind.findings,
        report.kind = .conflictingTypeHints := by
  intro agreeing conflicting
  let parameter : Parameter :=
    ⟨.named "x", "x", 1, false, false, some ⟨"int4[]", 3, 6⟩, [1, 7], .unresolved⟩
  have evaluated : (parseModule 0 "_stream" ("--! p\nselect :x::int4[], :x::INTEGER[];\n" ++
        "--! q\nselect :x::int4, :x::text;\n").toList).queries = [agreeing, conflicting] ∧
      (agreeing.bind.value = some [parameter] ∧
        (agreeing.statement.castHint? 1).map TypeName.text = some "int4[]" ∧
        (agreeing.statement.castHint? 7).map TypeName.text = some "integer[]") ∧
      (conflicting.statement.occurrences (.named "x") = [1, 5] ∧
        (conflicting.statement.castHint? 1).map TypeName.text = some "int4" ∧
        (conflicting.statement.castHint? 5).map TypeName.text = some "text") := by
    decide +kernel
  obtain ⟨parsed, ⟨accepted, array, again⟩, occurs, number, text⟩ := evaluated
  have cast : conflicting.CastAmong {} (conflicting.statement.occurrences (.named "x")) "int4"
      (.scalar .int4) := ⟨1, by simp [occurs], number, by decide +kernel⟩
  have castToo : conflicting.CastAmong {} (conflicting.statement.occurrences (.named "x")) "text"
      (.scalar .text) := ⟨5, by simp [occurs], text, by decide +kernel⟩
  refine ⟨parsed, ⟨[parameter], accepted, parameter, List.mem_cons_self, ?_, ?_⟩, ?_⟩
  · exact ⟨1, by decide, array, by decide +kernel⟩
  · exact ⟨7, by decide, again, by decide +kernel⟩
  · exact (casts_of_one_type conflicting {} (by decide +kernel)).2 _ cast castToo (by simp)

/-- Two names in quotes that differ in case are taken for one type, whatever is declared. -/
theorem quoted_case_agrees :
    let query : Query := ⟨0, ⟨⟨"q", .implicit, .many, false⟩, ⟨4, 5⟩, [], none⟩, ⟨3, 5⟩,
      "SELECT :x::\"Foo\", :x::\"foo\";\n".toList, ⟨6, 35⟩⟩
    let schema : Schema :=
      { types := [⟨"Foo", .enumeration "Foo" ["a"]⟩, ⟨"foo", .enumeration "foo" ["b"]⟩] }
    query ∈ (parseModule 0 "_stream"
        "--! q\nSELECT :x::\"Foo\", :x::\"foo\";\n".toList).queries ∧
      (query.bind.value.map fun parameters => parameters.map Parameter.occurrences) =
        some [[1, 5]] ∧
      query.CastAmong schema [1, 5] "\"Foo\"" (.enumeration "Foo" ["a"]) ∧
      query.CastAmong schema [1, 5] "\"foo\"" (.enumeration "foo" ["b"]) := by
  intro query schema
  have evaluated : query ∈ (parseModule 0 "_stream"
        "--! q\nSELECT :x::\"Foo\", :x::\"foo\";\n".toList).queries ∧
      (query.bind.value.map fun parameters => parameters.map Parameter.occurrences) =
        some [[1, 5]] ∧
      (query.statement.castHint? 1).map TypeName.text = some "\"Foo\"" ∧
      (query.statement.castHint? 5).map TypeName.text = some "\"foo\"" := by
    decide +kernel
  obtain ⟨parsed, accepted, capital, small⟩ := evaluated
  exact ⟨parsed, accepted, ⟨1, by decide, capital, by decide +kernel⟩,
    ⟨5, by decide, small, by decide +kernel⟩⟩

end Query

end AnnotatedSql
