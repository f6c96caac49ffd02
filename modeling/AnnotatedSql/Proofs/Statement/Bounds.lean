import AnnotatedSql.Parameter.Typing
import AnnotatedSql.Projection.Basic

/-!
# Tokens that exist

Whatever is read from a statement lies within it: the parentheses that are paired, the names and
types that are read, and the items that a list is split into. Columns, paths of fields and lists of
tables are given by their tokens, so that what is read of them can be followed token by token.
-/

namespace AnnotatedSql

theorem Nesting.pairs_bounds {index : Nat} {opened : List Nat} {kinds : List TokenKind}
    (before : ∀ opening ∈ opened, opening < index) {opening closing : Nat}
    (paired : (opening, closing) ∈ pairs index opened kinds) :
    opening < closing ∧ closing < index + kinds.length := by
  induction kinds generalizing index opened with
  | nil => cases paired
  | cons kind kinds ih =>
    have skip : ∀ {others : List Nat}, (∀ other ∈ others, other < index + 1) →
        (opening, closing) ∈ pairs (index + 1) others kinds →
        opening < closing ∧ closing < index + (kind :: kinds).length := by
      intro others outside inRest
      have := ih outside inRest
      rw [List.length_cons]
      omega
    unfold pairs at paired
    split at paired
    · refine skip (fun other member => ?_) paired
      rcases List.mem_cons.mp member with rfl | member
      · omega
      · have := before other member
        omega
    next outer =>
      rcases List.mem_cons.mp paired with same | paired
      · cases same
        have := before opening (by simp)
        rw [List.length_cons]
        omega
      · refine skip (fun other member => ?_) paired
        have := before other (by simp [member])
        omega
    · refine skip (fun other member => ?_) paired
      have := before other member
      omega

namespace Statement

/-- An opening parenthesis is paired with a later one. -/
def Paired (s : Statement) : Prop :=
  ∀ opening closing, (opening, closing) ∈ s.pairs → opening < closing ∧ closing < s.size

theorem ofLexemes_paired (lexemes : List Lexeme) : (ofLexemes lexemes).Paired := by
  intro opening closing paired
  have bounds := Nesting.pairs_bounds (fun _ absent => by cases absent) paired
  simpa [size, ofLexemes] using bounds

variable {s : Statement} {i : Nat}

/-! ## Single tokens -/

theorem lt_size_of_kind {kind : TokenKind} (found : s.kind? i = some kind) : i < s.size := by
  obtain ⟨lexeme, read, _⟩ := Option.map_eq_some_iff.mp found
  exact (Array.getElem?_eq_some_iff.mp read).1

theorem kind_eq_none_iff : s.kind? i = none ↔ s.size ≤ i := by
  simp [kind?, size]

theorem exists_kind_of_lt (inside : i < s.size) : ∃ kind, s.kind? i = some kind :=
  Option.ne_none_iff_exists'.mp (mt kind_eq_none_iff.mp (Nat.not_le.mpr inside))

theorem lt_size_of_is {kind : TokenKind} (found : s.is i kind = true) : i < s.size :=
  lt_size_of_kind (eq_of_beq found)

theorem lt_size_of_keyword {keyword : String} (found : s.isKeyword i keyword = true) :
    i < s.size := by
  unfold isKeyword at found
  rw [Bool.and_eq_true] at found
  exact lt_size_of_is found.1

theorem isWord_of_keyword {keyword : String} (found : s.isKeyword i keyword = true) :
    s.isWord i = true := by
  unfold isKeyword at found
  rw [Bool.and_eq_true] at found
  rw [isWord, eq_of_beq found.1]
  rfl

theorem lt_size_of_word (found : s.isWord i = true) : i < s.size := by
  obtain ⟨kind, read, _⟩ := Option.any_eq_true _ _ |>.mp found
  exact lt_size_of_kind read

theorem lt_size_of_param (found : s.isParam i = true) : i < s.size := by
  obtain ⟨kind, read, _⟩ := Option.any_eq_true _ _ |>.mp found
  exact lt_size_of_kind read

/-- A word is an identifier, quoted or not. -/
theorem kind_of_word (word : s.isWord i = true) :
    s.kind? i = some .ident ∨ s.kind? i = some .quotedIdent := by
  obtain ⟨kind, found, word⟩ := (Option.any_eq_true _ _).mp word
  cases kind <;> first | exact Or.inl found | exact Or.inr found | cases word

theorem isWord_of_name {name : Name} (found : s.name? i = some name) : s.isWord i = true := by
  unfold name? at found
  unfold isWord
  split at found
  next read => rw [read]; rfl
  next read => rw [read]; rfl
  · cases found

theorem isWord_of_typeWord {word : String} (found : s.typeWord? i = some word) :
    s.isWord i = true := by
  unfold typeWord? at found
  unfold isWord
  split at found
  next read => rw [read]; rfl
  next read => rw [read]; rfl
  · cases found

theorem lt_size_of_name {name : Name} (found : s.name? i = some name) : i < s.size :=
  lt_size_of_word (isWord_of_name found)

theorem lt_size_of_typeWord {word : String} (found : s.typeWord? i = some word) : i < s.size :=
  lt_size_of_word (isWord_of_typeWord found)

/-- The partner of a parenthesis is the other one of a pair. -/
theorem mem_pairs_of_partner {other : Nat} (found : s.partner i = some other) :
    (i, other) ∈ s.pairs ∨ (other, i) ∈ s.pairs := by
  unfold partner at found
  split at found
  next first last listed =>
    cases found
    obtain rfl : first = i := eq_of_beq (List.find?_some listed :)
    exact Or.inl (List.mem_of_find?_eq_some listed)
  · obtain ⟨⟨first, last⟩, listed, rfl⟩ := Option.map_eq_some_iff.mp found
    obtain rfl : last = i := eq_of_beq (List.find?_some listed :)
    exact Or.inr (List.mem_of_find?_eq_some listed)

theorem Paired.partner_lt (paired : s.Paired) {other : Nat} (found : s.partner i = some other) :
    other < s.size := by
  rcases mem_pairs_of_partner found with begins | ends
  · exact (paired _ _ begins).2
  · have bounds := paired _ _ ends
    omega

/-! ## Names -/

theorem followDots_bounds (fuel : Nat) (name : Name) {next : Nat} (inside : next ≤ s.size) :
    next ≤ (s.followDots fuel name next).2 ∧ (s.followDots fuel name next).2 ≤ s.size := by
  induction fuel generalizing name next with
  | zero => exact ⟨Nat.le_refl _, inside⟩
  | succ fuel ih =>
    unfold followDots
    split
    · split
      next part found =>
        have := lt_size_of_name found
        have step := ih part (show next + 2 ≤ s.size by omega)
        omega
      · exact ⟨Nat.le_refl _, inside⟩
    · exact ⟨Nat.le_refl _, inside⟩

/-- A name that is read ends after it begins, within the statement. -/
theorem objectName_bounds {name : Name} {after : Nat}
    (found : s.objectName i = some (name, after)) : i < after ∧ after ≤ s.size := by
  obtain ⟨first, read, same⟩ := Option.map_eq_some_iff.mp found
  have begins := lt_size_of_name read
  have bounds := followDots_bounds s.size first begins
  rw [same] at bounds
  dsimp only at bounds
  omega

/-! ## Columns -/

/-- The tokens from `first` to `last` name a column: one name, or two with a dot between them. -/
inductive IsReference (s : Statement) : Nat → Nat → ColumnName → Prop
  | bare {i : Nat} {column : Name} (named : s.name? i = some column) :
      IsReference s i i ⟨none, column⟩
  | qualified {i : Nat} {qualifier column : Name} (owner : s.name? i = some qualifier)
      (dot : s.is (i + 1) .dot = true) (named : s.name? (i + 2) = some column) :
      IsReference s i (i + 2) ⟨some qualifier, column⟩

variable {first last : Nat} {name : ColumnName}

theorem IsReference.bounds (reference : s.IsReference first last name) :
    first ≤ last ∧ last < s.size := by
  cases reference with
  | bare named => exact ⟨Nat.le_refl _, lt_size_of_name named⟩
  | qualified _ _ named => exact ⟨by omega, lt_size_of_name named⟩

/-- A column that ends at a token is a reference that no dot and no cast precedes. -/
theorem reference_of_columnEndingAt (found : s.columnEndingAt? last = some (name, first)) :
    s.IsReference first last name ∧ s.isClauseKeyword last = false ∧
      (first = 0 ∨ s.is (first - 1) .dot = false ∧ s.is (first - 1) .doubleColon = false) := by
  obtain ⟨column, named, found⟩ := Option.bind_eq_some_iff.mp found
  have alone : ∀ {start : Nat}, ¬ (decide (0 < start) &&
      (s.is (start - 1) .dot || s.is (start - 1) .doubleColon)) = true →
      start = 0 ∨ s.is (start - 1) .dot = false ∧ s.is (start - 1) .doubleColon = false := by
    intro start free
    simp only [Bool.and_eq_true, Bool.or_eq_true, decide_eq_true_eq, not_and, not_or,
      Bool.not_eq_true] at free
    exact (Nat.eq_zero_or_pos start).imp_right free
  dsimp only at found
  split at found
  · cases found
  next noClause =>
    have noClause : s.isClauseKeyword last = false := Bool.eq_false_iff.mpr noClause
    split at found
    next dotted =>
      simp only [Bool.and_eq_true, decide_eq_true_eq] at dotted
      obtain ⟨⟨full, start⟩, qualified, found⟩ := Option.bind_eq_some_iff.mp found
      obtain ⟨qualifier, owner, same⟩ := Option.map_eq_some_iff.mp qualified
      dsimp only at found
      split at found
      · cases found
      next free =>
        cases found
        cases same
        obtain ⟨start, rfl⟩ := Nat.exists_eq_add_of_le' dotted.1
        exact ⟨.qualified owner dotted.2 named, noClause, alone free⟩
    · obtain ⟨⟨full, start⟩, same, found⟩ := Option.bind_eq_some_iff.mp found
      dsimp only at found
      split at found
      · cases found
      next free =>
        cases found
        cases same
        exact ⟨.bare named, noClause, alone free⟩

/-- A path that starts at a token is a reference. -/
theorem reference_of_columnPath {next : Nat} (found : s.columnPath? first = some (name, next)) :
    ∃ last, next = last + 1 ∧ s.IsReference first last name ∧ s.isClauseKeyword first = false := by
  unfold columnPath? at found
  split at found
  · cases found
  next noClause =>
    have noClause : s.isClauseKeyword first = false := Bool.eq_false_iff.mpr noClause
    split at found
    · cases found
    next owner named =>
      split at found
      next dot =>
        obtain ⟨column, follows, same⟩ := Option.map_eq_some_iff.mp found
        cases same
        exact ⟨first + 2, rfl, .qualified named dot follows, noClause⟩
      · cases found
        exact ⟨first, rfl, .bare named, noClause⟩

theorem columnPath_bounds {next : Nat} (found : s.columnPath? i = some (name, next)) :
    i < next ∧ next ≤ s.size := by
  obtain ⟨last, rfl, reference, _⟩ := reference_of_columnPath found
  have := reference.bounds
  omega

theorem columnAt_bounds {next : Nat} (found : s.columnAt? i = some (name, next)) :
    i < next ∧ next ≤ s.size := by
  unfold columnAt? at found
  exact columnPath_bounds (Option.filter_eq_some_iff.mp found).1

theorem columnEndingAt_bounds {start : Nat} (found : s.columnEndingAt? i = some (name, start)) :
    start ≤ i ∧ i < s.size :=
  (reference_of_columnEndingAt found).1.bounds

/-! ## Fields -/

/-- The tokens from `i` to before `hi` are a path of fields: dots, each with a name behind it. -/
inductive IsFieldPath (s : Statement) (hi : Nat) : Nat → List Nat → Prop
  | ended : IsFieldPath s hi hi []
  | field {i : Nat} {names : List Nat} (before : i < hi) (dot : s.is i .dot = true)
      (word : s.isWord (i + 1) = true) (further : IsFieldPath s hi (i + 2) names) :
      IsFieldPath s hi i ((i + 1) :: names)

theorem isFieldPath_of_read {hi fuel : Nat} {names : List Nat}
    (path : s.fieldPath? hi fuel i = some names) : s.IsFieldPath hi i names := by
  have ended : ∀ {i : Nat} {names : List Nat}, (if i == hi then some [] else none) = some names →
      s.IsFieldPath hi i names := by
    intro i names path
    split at path
    next ends =>
      cases path
      rw [eq_of_beq ends]
      exact .ended
    · cases path
  induction fuel generalizing i names with
  | zero => exact ended path
  | succ fuel ih =>
    unfold fieldPath? at path
    split at path
    next before =>
      split at path
      next dotted =>
        obtain ⟨dot, word⟩ := Bool.and_eq_true_iff.mp dotted
        obtain ⟨rest, further, rfl⟩ := Option.map_eq_some_iff.mp path
        exact .field before dot word (ih further)
      · cases path
    · exact ended path

/-- A star with a qualifier is three tokens. -/
theorem starQualifier_parts {lo hi : Nat} {qualifier : Name}
    (star : s.starQualifier? lo hi = some qualifier) : hi = lo + 3 ∧ s.is (lo + 1) .dot = true ∧
      s.is (lo + 2) .star = true ∧ s.name? lo = some qualifier := by
  unfold starQualifier? at star
  split at star
  next long =>
    simp only [Bool.and_eq_true, beq_iff_eq] at long
    exact ⟨long.1.1, long.1.2, long.2, star⟩
  · cases star

/-! ## Types -/

theorem followTypeDots_bounds (fuel : Nat) (word : String) {next : Nat} (inside : next ≤ s.size) :
    next ≤ (s.followTypeDots fuel word next).2 ∧
      (s.followTypeDots fuel word next).2 ≤ s.size := by
  induction fuel generalizing word next with
  | zero => exact ⟨Nat.le_refl _, inside⟩
  | succ fuel ih =>
    unfold followTypeDots
    split
    · split
      next part found =>
        have := lt_size_of_typeWord found
        have step := ih part (show next + 2 ≤ s.size by omega)
        omega
      · exact ⟨Nat.le_refl _, inside⟩
    · exact ⟨Nat.le_refl _, inside⟩

theorem isTimeZone_bounds {first : String} (found : s.isTimeZone i first = true) :
    i + 3 ≤ s.size := by
  unfold isTimeZone at found
  rw [Bool.and_eq_true] at found
  exact lt_size_of_keyword found.2

theorem completeType_bounds (word : String) {next : Nat} (inside : next ≤ s.size) :
    next ≤ (s.completeType word next).2 ∧ (s.completeType word next).2 ≤ s.size := by
  unfold completeType
  simp only [Bool.and_eq_true]
  split
  next found =>
    have := lt_size_of_keyword found.2
    dsimp only
    omega
  split
  next found =>
    have := lt_size_of_keyword found.2
    dsimp only
    omega
  split
  next found =>
    have := isTimeZone_bounds found.2
    dsimp only
    omega
  split
  next found =>
    have := isTimeZone_bounds found.2
    dsimp only
    omega
  split
  next found =>
    have := isTimeZone_bounds found.2
    dsimp only
    omega
  · exact ⟨Nat.le_refl _, inside⟩

theorem Paired.skipGroup_bounds (paired : s.Paired) {next : Nat} (inside : next ≤ s.size) :
    s.skipGroup next ≤ s.size := by
  unfold skipGroup
  split
  · split
    next closing found =>
      exact paired.partner_lt found
    · exact inside
  · exact inside

theorem arraySuffixes_bounds {fuel next : Nat} (inside : next ≤ s.size) :
    (s.arraySuffixes fuel next).2 ≤ s.size := by
  induction fuel generalizing next with
  | zero => exact inside
  | succ fuel ih =>
    unfold arraySuffixes
    dsimp only
    split
    · generalize (if s.is (next + 1) .number then next + 2 else next + 1) = closing
      split
      next closes => exact ih (lt_size_of_is closes)
      · exact inside
    · exact inside

/-- A type name that is read lies within the statement. -/
theorem Paired.typeName_bounds (paired : s.Paired) {type : TypeName}
    (found : s.typeName? i = some type) : type.lo = i ∧ i < s.size ∧ type.hi ≤ s.size := by
  obtain ⟨first, read, found⟩ := Option.bind_eq_some_iff.mp found
  have begins := lt_size_of_typeWord read
  cases found
  refine ⟨rfl, begins, ?_⟩
  have dots := followTypeDots_bounds s.size first begins
  have words := completeType_bounds (s.followTypeDots s.size first (i + 1)).1 dots.2
  exact arraySuffixes_bounds (paired.skipGroup_bounds words.2)

/-- So does the type of a cast. -/
theorem Paired.castHint_bounds (paired : s.Paired) {type : TypeName}
    (found : s.castHint? i = some type) : type.lo < s.size ∧ type.hi ≤ s.size := by
  unfold castHint? at found
  dsimp only at found
  split at found
  · obtain ⟨same, begins, ends⟩ := paired.typeName_bounds found
    exact ⟨same ▸ begins, ends⟩
  · unfold castTarget? at found
    split at found
    · obtain ⟨same, begins, ends⟩ := paired.typeName_bounds (Option.filter_eq_some_iff.mp found).1
      exact ⟨same ▸ begins, ends⟩
    · cases found

/-- A cast that ends some tokens is one of them, outside the parentheses among them, and its type goes on
to the end. -/
theorem trailingCast_parts {lo hi cast : Nat} {type : TypeName}
    (trailing : s.trailingCast? lo hi = some (cast, type)) :
    (lo < cast ∧ cast < hi) ∧ s.is cast .doubleColon = true ∧ s.enclosing cast = s.enclosing lo ∧
      s.typeName? (cast + 1) = some type ∧ type.hi = hi := by
  obtain ⟨last, found, trailing⟩ := Option.bind_eq_some_iff.mp trailing
  obtain ⟨read, named, trailing⟩ := Option.bind_eq_some_iff.mp trailing
  unfold lastCast? at found
  have listed := List.mem_range'_1.mp (List.mem_reverse.mp (List.mem_of_find?_eq_some found))
  have passes := List.find?_some found
  obtain ⟨isCast, level⟩ := Bool.and_eq_true_iff.mp passes
  split at trailing
  next ends =>
    cases trailing
    exact ⟨by omega, isCast, eq_of_beq level, named, eq_of_beq ends⟩
  · cases trailing

theorem trailingCast_bounds {lo hi cast : Nat} {type : TypeName}
    (trailing : s.trailingCast? lo hi = some (cast, type)) : lo < cast ∧ cast < hi :=
  (trailingCast_parts trailing).1

theorem leadingGroup_parts {lo hi closing : Nat} (group : s.leadingGroup? lo hi = some closing) :
    s.is lo .parenOpen = true ∧ s.partner lo = some closing ∧ closing < hi := by
  unfold leadingGroup? at group
  split at group
  next opens =>
    obtain ⟨paired, ends⟩ := Option.filter_eq_some_iff.mp group
    exact ⟨opens, paired, of_decide_eq_true ends⟩
  · cases group

/-! ## Lists -/

/-- Splitting yields items that begin before the end of the range. -/
theorem itemsFrom_bounds {hi fuel start : Nat} {item : Nat × Nat} (bounded : i < hi → start < hi)
    (member : item ∈ s.itemsFrom hi fuel start i) : item.1 < hi ∧ item.2 ≤ hi := by
  induction fuel generalizing start i with
  | zero =>
    unfold itemsFrom at member
    split at member
    · obtain rfl := List.mem_singleton.mp member
      omega
    · cases member
  | succ fuel ih =>
    unfold itemsFrom at member
    split at member
    next inside =>
      split at member
      · exact ih (fun _ => bounded inside) member
      · rcases List.mem_cons.mp member with rfl | member
        · exact ⟨bounded inside, Nat.le_of_lt inside⟩
        · exact ih id member
      · exact ih (fun _ => bounded inside) member
    · split at member
      · obtain rfl := List.mem_singleton.mp member
        omega
      · cases member

theorem splitCommas_bounds {lo hi : Nat} {item : Nat × Nat} (member : item ∈ s.splitCommas lo hi) :
    item.1 < hi ∧ item.2 ≤ hi :=
  itemsFrom_bounds id member

theorem findTop_bounds {lo hi : Nat} {test : Nat → Bool} (found : s.findTop? lo hi test = some i) :
    lo ≤ i ∧ i < hi := by
  have listed := List.mem_range'_1.mp (List.mem_of_find?_eq_some found)
  omega

theorem findTop_getD_le {lo hi bound : Nat} {test : Nat → Bool} (inside : hi ≤ bound) :
    (s.findTop? lo hi test).getD hi ≤ bound := by
  cases found : s.findTop? lo hi test with
  | none => exact inside
  | some i => exact Nat.le_trans (Nat.le_of_lt (findTop_bounds found).2) inside

theorem projectionRange_bounds {lo hi : Nat} (found : s.projectionRange? = some (lo, hi)) :
    hi ≤ s.size := by
  obtain ⟨verb, _, found⟩ := Option.bind_eq_some_iff.mp found
  have stops : (s.findTop? verb s.size (s.is · .semicolon)).getD s.size ≤ s.size :=
    findTop_getD_le (Nat.le_refl _)
  dsimp only at found
  split at found
  · cases found
    exact findTop_getD_le stops
  · split at found
    · cases found
    · obtain ⟨returning, _, same⟩ := Option.bind_eq_some_iff.mp found
      cases same
      exact stops

/-- The items of a projection lie within the statement. -/
theorem projectionItems_bounds {items : List (Nat × Nat)} (found : s.projectionItems? = some items)
    {item : Nat × Nat} (member : item ∈ items) : item.1 < s.size ∧ item.2 ≤ s.size := by
  obtain ⟨⟨lo, hi⟩, ranged, rfl⟩ := Option.map_eq_some_iff.mp found
  have stops := projectionRange_bounds ranged
  have bounds := splitCommas_bounds member
  omega

/-! ## Tables -/

/-- A table is a subquery or a list in parentheses, a call, or a relation. -/
inductive TableForm (s : Statement) (start : Nat) (reference : TableReference) : Prop
  | group (opens : s.is start .parenOpen = true)
      (read : s.groupReference? start start = some reference)
  | call {name : Name} {next : Nat} (named : s.objectName start = some (name, next))
      (opens : s.is next .parenOpen = true) (read : s.groupReference? start next = some reference)
  | relation {name : Name} {next : Nat} (named : s.objectName start = some (name, next))
      (read : s.relationReference? start = some reference)

theorem tableForm_of_read {reference : TableReference}
    (read : s.tableReference? i = some reference) :
    s.TableForm (s.skipTableWords s.size i) reference := by
  unfold tableReference? at read
  dsimp only at read
  split at read
  next opens => exact .group opens read
  split at read
  · cases read
  split at read
  · cases read
  next name next named =>
    split at read
    next opens => exact .call named opens read
    · exact .relation named read

/-- The tables of a list are read one by one. -/
theorem read_of_mem_tableList {fuel : Nat} {reference : TableReference}
    (listed : reference ∈ s.tableList fuel i) : ∃ j, s.tableReference? j = some reference := by
  induction fuel generalizing i with
  | zero => cases listed
  | succ fuel ih =>
    unfold tableList at listed
    split at listed
    · cases listed
    next first read =>
      rcases List.mem_cons.mp listed with rfl | later
      · exact ⟨i, read⟩
      · split at later
        · exact ih later
        · cases later

/-! ## Steps -/

/-- What the word at token `i` does to the scope, and which word that is. -/
inductive StepAt (s : Statement) (i : Nat) : ScopeStep → Prop
  | from_ {reference : TableReference} (word : s.isKeyword i "from" = true)
      (listed : reference ∈ s.tableList s.size (i + 1)) : StepAt s i (.table reference false)
  | outerJoin (word : s.isKeyword i "join" = true)
      (outer : s.isJoin i "right" = true ∨ s.isJoin i "full" = true) :
      StepAt s i (.absent (s.queryContext i))
  | join {reference : TableReference} (word : s.isKeyword i "join" = true)
      (read : s.tableReference? (i + 1) = some reference) :
      StepAt s i (.table reference (s.isJoin i "left" || s.isJoin i "full"))
  | update {reference : TableReference} (word : s.isKeyword i "update" = true)
      (read : s.tableReference? (i + 1) = some reference) : StepAt s i (.table reference false)
  | insertInto {reference : TableReference} (word : s.isKeyword i "into" = true)
      (after : 0 < i ∧ s.isKeyword (i - 1) "insert" = true)
      (read : s.relationReference? (i + 1) = some reference) :
      StepAt s i (.insertion reference (s.insertSource reference.next))

/-- The words that do something stand directly in a query. -/
theorem stepAt_of_mem {action : ScopeStep} (listed : action ∈ s.scopeStepsAt i) :
    s.isClauseLevel i = true ∧ s.StepAt i action := by
  unfold scopeStepsAt at listed
  split at listed
  · cases listed
  next direct =>
    refine ⟨by simpa using direct, ?_⟩
    split at listed
    next word =>
      obtain ⟨reference, member, rfl⟩ := List.mem_map.mp listed
      exact .from_ word member
    split at listed
    next word =>
      unfold joinSteps at listed
      rcases List.mem_append.mp listed with earlier | added
      · split at earlier
        next outer =>
          obtain rfl := List.mem_singleton.mp earlier
          exact .outerJoin word (Bool.or_eq_true_iff.mp outer)
        · cases earlier
      · obtain ⟨reference, read, rfl⟩ := Option.map_eq_some_iff.mp (Option.mem_toList.mp added)
        exact .join word read
    split at listed
    next word =>
      obtain ⟨reference, read, rfl⟩ := List.mem_map.mp listed
      exact .update (Bool.and_eq_true_iff.mp word).1 (Option.mem_toList.mp read)
    split at listed
    next words =>
      simp only [Bool.and_eq_true, decide_eq_true_eq] at words
      obtain ⟨reference, read, rfl⟩ := List.mem_map.mp listed
      exact .insertInto words.1.1 ⟨words.1.2, words.2⟩ (Option.mem_toList.mp read)
    · cases listed

end Statement

/-! ## What is asked of parameters -/

namespace Typing

/-- What is asked for has the property, if anything is. -/
def AllAsked (holds : Expectation → Prop) (asked : Option Expectation) : Prop :=
  ∀ expectation, asked = some expectation → holds expectation

variable {holds : Expectation → Prop}

theorem AllAsked.none : AllAsked holds none := fun _ impossible => nomatch impossible

theorem AllAsked.orElse {first second : Option Expectation} (left : AllAsked holds first)
    (right : AllAsked holds second) : AllAsked holds (first <|> second) := by
  intro expectation asked
  cases first with
  | none => exact right expectation asked
  | some _ => exact left expectation asked

theorem AllAsked.ite {condition : Prop} [Decidable condition] {asked : Option Expectation}
    (all : AllAsked holds asked) : AllAsked holds (if condition then asked else .none) := by
  split
  · exact all
  · exact AllAsked.none

/-- What the surroundings of a placeholder ask for is a number of rows, what a column that they name is
found to have, or the type of a column that is written to. -/
theorem contextType_cases {s : Statement} {scope : Scope} (rows : holds (.ok (.scalar .int8)))
    (named : ∀ i name lo hi, lo < s.size → hi ≤ s.size → holds (columnType s scope i name lo hi))
    (written : ∀ target, scope.insert = some target → ∀ column ∈ target.columns,
      holds (.ok column.type)) (i : Nat) : AllAsked holds (contextType s scope i) := by
  have ending : ∀ last, AllAsked holds (typeEndingAt s scope last) := by
    rintro last _ asked
    obtain ⟨⟨name, start⟩, found, rfl⟩ := Option.map_eq_some_iff.mp asked
    have bounds := Statement.columnEndingAt_bounds found
    exact named last name start (last + 1) (by omega) (by omega)
  have range : ∀ i, AllAsked holds (rangeColumn s scope i) := by
    intro i expectation asked
    obtain ⟨last, _, asked⟩ := Option.bind_eq_some_iff.mp asked
    exact ending last expectation asked
  have count : ∀ lo, AllAsked holds (rowCount s lo) := fun lo => .ite fun _ asked =>
    Option.some.inj asked ▸ rows
  have after : ∀ lo, AllAsked holds (comparedAfter s scope lo) := fun lo => .ite (ending _)
  have before : ∀ hi, AllAsked holds (comparedBefore s scope hi) := fun hi => .ite fun _ asked => by
    obtain ⟨⟨name, next⟩, found, rfl⟩ := Option.map_eq_some_iff.mp asked
    have bounds := Statement.columnAt_bounds found
    exact named _ name _ next (by omega) bounds.2
  have lower : ∀ lo, AllAsked holds (lowerBound s scope lo) := fun lo => .ite (range _)
  have upper : ∀ lo, AllAsked holds (upperBound s scope lo) := fun lo => .ite (.ite (range _))
  have member : ∀ lo hi, AllAsked holds (listMember s scope lo hi) := by
    intro lo hi
    unfold listMember
    dsimp only
    split
    · exact .none
    · refine .ite fun expectation asked => ?_
      obtain ⟨last, _, asked⟩ := Option.bind_eq_some_iff.mp asked
      exact ending last expectation asked
  have inserted : ∀ lo hi, AllAsked holds (insertedValue s scope lo hi) := by
    intro lo hi expectation asked
    obtain ⟨target, writes, asked⟩ := Option.bind_eq_some_iff.mp asked
    obtain ⟨index, _, asked⟩ := Option.bind_eq_some_iff.mp asked
    obtain ⟨column, listed, asked⟩ := Option.bind_eq_some_iff.mp asked
    obtain rfl := Option.some.inj asked
    exact written target writes column (List.mem_of_getElem? listed)
  exact (count _).orElse <| (after _).orElse <| (before _).orElse <| (lower _).orElse <|
    (upper _).orElse <| (member _ _).orElse <| inserted _ _

end Typing

end AnnotatedSql
