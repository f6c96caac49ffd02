import AnnotatedSql.Proofs.Parameter.Inserted
import AnnotatedSql.Proofs.Query.Rewriting

/-!
# Values of an insertion

A placeholder that is a value of its own has the type of the column in its place, as long as all
items of the column list up to that place are plain names. An item that is none, such as an element of
an array, is passed over, and each value after it has the type of the column of a later place.
-/

namespace AnnotatedSql

namespace Statement

variable {s : Statement} {relation : Relation} {columns : List Column} {first last k : Nat}

/-- The items that are looked up are the plain names. -/
theorem Levelled.namesAt_iff (levelled : s.Levelled) (paired : (first, last) ∈ s.pairs) :
    (∃ item, (s.splitCommas (first + 1) last)[k]? = some item ∧
      (item.2 == item.1 + 1 && s.isWord item.1) = true) ↔ s.NamesAt first last k := by
  constructor
  · rintro ⟨⟨lo, hi⟩, found, plain⟩
    obtain ⟨single, word⟩ := Bool.and_eq_true_iff.mp plain
    obtain rfl : hi = lo + 1 := eq_of_beq single
    exact ⟨lo, (levelled.item_iff paired).mp found, word⟩
  · rintro ⟨lo, item, word⟩
    exact ⟨(lo, lo + 1), (levelled.item_iff paired).mpr item, by simp [word]⟩

/-- The column of a value is that of the plain name that has as many plain names before it. -/
theorem Levelled.listed_iff (levelled : s.Levelled) (paired : (first, last) ∈ s.pairs)
    (listed : Scope.listedColumns s relation (s.splitCommas (first + 1) last) = .ok columns)
    {column : Column} (found : columns[k]? = some column) :
    ∃ place i, k ≤ place ∧ s.ItemAt first last place i ∧ s.isWord i = true ∧
      s.listedColumn? relation i = some column ∧
      (place = k ↔ ∀ before ≤ k, s.NamesAt first last before) := by
  have same := congrArg (·[k]?) (Scope.listedColumns_get listed)
  simp only [List.getElem?_map, found, Option.map_some] at same
  obtain ⟨⟨lo, hi⟩, plain, names⟩ := Option.map_eq_some_iff.mp same
  obtain ⟨place, later, stands, passes, moved⟩ := getElem?_filter_some plain
  obtain ⟨single, word⟩ := Bool.and_eq_true_iff.mp passes
  obtain rfl : hi = lo + 1 := eq_of_beq single
  refine ⟨place, lo, later, (levelled.item_iff paired).mp stands, word, names, moved.trans ?_⟩
  exact forall₂_congr fun before _ => levelled.namesAt_iff paired

/-- Behind plain names only, a value has the column of its place. -/
theorem Levelled.listed_of_names (levelled : s.Levelled) (paired : (first, last) ∈ s.pairs)
    (listed : Scope.listedColumns s relation (s.splitCommas (first + 1) last) = .ok columns)
    (names : ∀ before ≤ k, s.NamesAt first last before) :
    ∃ i column, s.ItemAt first last k i ∧ s.isWord i = true ∧
      s.listedColumn? relation i = some column ∧ columns[k]? = some column := by
  obtain ⟨i, item, word⟩ := names k (Nat.le_refl k)
  have same := congrArg (·[k]?) (Scope.listedColumns_get listed)
  simp only [List.getElem?_map] at same
  rw [getElem?_filter_of_all fun before atMost => (levelled.namesAt_iff paired).mpr (names before atMost),
    (levelled.item_iff paired).mpr item] at same
  obtain ⟨column, found, names⟩ := Option.map_eq_some_iff.mp same.symm
  exact ⟨i, column, item, word, names.symm, found⟩

end Statement

/-- A value that is a placeholder of its own asks for the type of the column of its place: of the
relation if there is no list of columns, and of the list if all its items up to that place are plain
names. It asks for the type of no other column, unless an item up to its place is no plain name. -/
theorem Query.inserted_value {schema : Schema} {query : Query} {relation : Relation} {scope : Scope}
    {path : List Lexeme} {name : Lexeme} {list : Option Nat} {first values opening closing k i : Nat}
    (inserts : query.statement.InsertsValues path name first list values)
    (known : (name.name?.bind fun name => schema.relation? name.text name.exact) = some relation)
    (built : Scope.ofStatement schema query.statement = .ok scope)
    (row : query.statement.RowAt (values + 1) opening closing)
    (item : query.statement.ItemAt opening closing k i) (param : query.statement.isParam i = true)
    (uncast : query.statement.castHint? i = none) :
    (list = none → Typing.contextType query.statement scope i =
      relation.columns[k]?.map (.ok ·.type)) ∧
    ∀ last, list = some last →
      ((∀ before ≤ k, query.statement.NamesAt first last before) →
        ∃ j column, query.statement.ItemAt first last k j ∧
          query.statement.listedColumn? relation j = some column ∧
          Typing.contextType query.statement scope i = some (.ok column.type)) ∧
      ∀ expectation, Typing.contextType query.statement scope i = some expectation →
        ∃ place j column, k ≤ place ∧ query.statement.ItemAt first last place j ∧
          query.statement.isWord j = true ∧
          query.statement.listedColumn? relation j = some column ∧ expectation = .ok column.type ∧
          (place = k ↔ ∀ before ≤ k, query.statement.NamesAt first last before) := by
  have levelled : query.statement.Levelled := by
    rw [query.statement_eq]
    exact Statement.ofLexemes_levelled _
  obtain ⟨columns, target, read⟩ := inserts.insert_eq levelled built known
  have type := Typing.contextType_of_value levelled target inserts.word row param uncast item
  constructor
  · rintro rfl
    rw [type, show columns = relation.columns from read]
  · rintro last rfl
    have listed : Scope.listedColumns query.statement relation _ = .ok columns := read
    have paired : (first, last) ∈ query.statement.pairs := by
      cases inserts.columns with
      | listed opens paired => exact levelled.pair_of_partner opens paired
    constructor
    · intro names
      obtain ⟨j, column, stands, _, named, found⟩ := levelled.listed_of_names paired listed names
      exact ⟨j, column, stands, named, by rw [type, found]; rfl⟩
    · intro expectation asks
      rw [type] at asks
      obtain ⟨column, found, rfl⟩ := Option.map_eq_some_iff.mp asks
      obtain ⟨place, j, later, stands, word, named, moved⟩ := levelled.listed_iff paired listed found
      exact ⟨place, j, column, later, stands, word, named, rfl, moved⟩

/-- The second value of the second row is for the second column of the list. -/
theorem Query.inserted_value_of_second_row :
    let schema : Schema := ⟨[⟨"t", [⟨"a", .array (.scalar .int4), true⟩, ⟨"b", .scalar .text, true⟩,
      ⟨"C", .scalar .int8, true⟩]⟩], []⟩
    let query : Query := ⟨0, ⟨⟨"q", .implicit, .many, false⟩, ⟨4, 5⟩, [], none⟩, ⟨3, 5⟩,
      "insert into s.t (\"C\", b, a[1]) values (f(1, 2), :x, 3), ((select 1), :y, 4);\n".toList,
      ⟨6, 83⟩⟩
    ∃ scope, Scope.ofStatement schema query.statement = .ok scope ∧
      query.statement.InsertsValues [⟨.ident, "s"⟩] ⟨.ident, "t"⟩ 5 (some 14) 15 ∧
      query.statement.RowAt 16 29 38 ∧ query.statement.ItemAt 29 38 1 35 ∧
      query.statement.isParam 35 = true ∧ query.statement.castHint? 35 = none ∧
      (∀ before ≤ 1, query.statement.NamesAt 5 14 before) ∧
      ∃ relation j column, schema.relation? "t" false = some relation ∧
        query.statement.ItemAt 5 14 1 j ∧ query.statement.listedColumn? relation j = some column ∧
        Typing.contextType query.statement scope 35 = some (.ok column.type) := by
  intro schema query
  let lexemes : List Lexeme :=
    [⟨.ident, "insert"⟩, ⟨.ident, "into"⟩, ⟨.ident, "s"⟩, ⟨.dot, "."⟩, ⟨.ident, "t"⟩,
    ⟨.parenOpen, "("⟩, ⟨.quotedIdent, "\"C\""⟩, ⟨.comma, ","⟩, ⟨.ident, "b"⟩, ⟨.comma, ","⟩,
    ⟨.ident, "a"⟩, ⟨.bracketOpen, "["⟩, ⟨.number, "1"⟩, ⟨.bracketClose, "]"⟩, ⟨.parenClose, ")"⟩,
    ⟨.ident, "values"⟩, ⟨.parenOpen, "("⟩, ⟨.ident, "f"⟩, ⟨.parenOpen, "("⟩, ⟨.number, "1"⟩,
    ⟨.comma, ","⟩, ⟨.number, "2"⟩, ⟨.parenClose, ")"⟩, ⟨.comma, ","⟩, ⟨.namedParam, ":x"⟩,
    ⟨.comma, ","⟩, ⟨.number, "3"⟩, ⟨.parenClose, ")"⟩, ⟨.comma, ","⟩, ⟨.parenOpen, "("⟩,
    ⟨.parenOpen, "("⟩, ⟨.ident, "select"⟩, ⟨.number, "1"⟩, ⟨.parenClose, ")"⟩, ⟨.comma, ","⟩,
    ⟨.namedParam, ":y"⟩, ⟨.comma, ","⟩, ⟨.number, "4"⟩, ⟨.parenClose, ")"⟩, ⟨.semicolon, ";"⟩]
  have lexed : query.statement = .ofLexemes lexemes :=
    query.statement_eq.trans (congrArg _ (by decide +kernel))
  rw [lexed]
  obtain ⟨scope, built⟩ : ∃ scope, Scope.ofStatement schema (.ofLexemes lexemes) = .ok scope := by
    have succeeds : (Scope.ofStatement schema (.ofLexemes lexemes)).toOption.isSome = true := by
      decide +kernel
    cases built : Scope.ofStatement schema (.ofLexemes lexemes) with
    | ok scope => exact ⟨scope, rfl⟩
    | error finding =>
      rw [built] at succeeds
      cases succeeds
  have inserts : (Statement.ofLexemes lexemes).InsertsValues [⟨.ident, "s"⟩] ⟨.ident, "t"⟩ 5
      (some 14) 15 :=
    ⟨by decide +kernel, by decide +kernel, by decide +kernel, ⟨_, rfl⟩, rfl,
      .listed (by decide +kernel) (by decide +kernel), by decide +kernel, by decide +kernel⟩
  have row : (Statement.ofLexemes lexemes).RowAt 16 29 38 :=
    .next (by decide +kernel) (by decide +kernel) (by decide +kernel)
      (.first (by decide +kernel) (by decide +kernel))
  have item : (Statement.ofLexemes lexemes).ItemAt 29 38 1 35 :=
    ⟨by decide, by decide +kernel, by decide +kernel, by decide +kernel, by decide +kernel⟩
  have param : (Statement.ofLexemes lexemes).isParam 35 = true := by decide +kernel
  have uncast : (Statement.ofLexemes lexemes).castHint? 35 = none := by decide +kernel
  have names : ∀ before ≤ 1, (Statement.ofLexemes lexemes).NamesAt 5 14 before := by
    intro before atMost
    obtain rfl | rfl : before = 0 ∨ before = 1 := by omega
    · exact ⟨6, ⟨by decide, by decide +kernel, by decide +kernel, by decide +kernel,
        by decide +kernel⟩, by decide +kernel⟩
    · exact ⟨8, ⟨by decide, by decide +kernel, by decide +kernel, by decide +kernel,
        by decide +kernel⟩, by decide +kernel⟩
  have known : ∃ relation, schema.relation? "t" false = some relation := ⟨_, rfl⟩
  obtain ⟨relation, known⟩ := known
  have values := @Query.inserted_value schema query relation scope [⟨.ident, "s"⟩] ⟨.ident, "t"⟩
    (some 14) 5 15 29 38 1 35
  rw [lexed] at values
  obtain ⟨j, column, listed, named, asks⟩ :=
    ((values inserts known built row item param uncast).2 14 rfl).1 names
  exact ⟨scope, built, inserts, row, item, param, uncast, names, relation, j, column, known, listed,
    named, asks⟩

/-- Behind an element of an array, each value asks for the type of the column of the next place, and
the last one for none. -/
theorem Query.inserted_value_moves :
    let schema : Schema := ⟨[⟨"t", [⟨"a", .array (.scalar .int4), true⟩, ⟨"b", .scalar .text, true⟩]⟩],
      []⟩
    let query : Query := ⟨0, ⟨⟨"q", .implicit, .many, false⟩, ⟨4, 5⟩, [], none⟩, ⟨3, 5⟩,
      "insert into t (a[1], b) values (:p, :q);\n".toList, ⟨6, 47⟩⟩
    query ∈ (parseModule 0 "_stream"
        "--! q\ninsert into t (a[1], b) values (:p, :q);\n".toList).queries ∧
      query.statement.InsertsValues [] ⟨.ident, "t"⟩ 3 (some 10) 11 ∧
      query.statement.RowAt 12 12 16 ∧
      (query.statement.ItemAt 12 16 0 13 ∧ query.statement.castHint? 13 = none) ∧
      (query.statement.ItemAt 12 16 1 15 ∧ query.statement.castHint? 15 = none) ∧
      ¬ query.statement.NamesAt 3 10 0 ∧
      (query.statement.ItemAt 3 10 1 9 ∧ query.statement.name? 9 = some ⟨"b", false⟩) ∧
      (Scope.ofStatement schema query.statement).toOption.map (fun scope =>
        [13, 15].map fun i => (Typing.contextType query.statement scope i).map Except.toOption) =
          some [some (some (.scalar .text)), none] := by
  intro schema query
  let lexemes : List Lexeme :=
    [⟨.ident, "insert"⟩, ⟨.ident, "into"⟩, ⟨.ident, "t"⟩, ⟨.parenOpen, "("⟩, ⟨.ident, "a"⟩,
    ⟨.bracketOpen, "["⟩, ⟨.number, "1"⟩, ⟨.bracketClose, "]"⟩, ⟨.comma, ","⟩, ⟨.ident, "b"⟩,
    ⟨.parenClose, ")"⟩, ⟨.ident, "values"⟩, ⟨.parenOpen, "("⟩, ⟨.namedParam, ":p"⟩, ⟨.comma, ","⟩,
    ⟨.namedParam, ":q"⟩, ⟨.parenClose, ")"⟩, ⟨.semicolon, ";"⟩]
  have lexed : query.statement = .ofLexemes lexemes :=
    query.statement_eq.trans (congrArg _ (by decide +kernel))
  rw [lexed]
  have levelled := Statement.ofLexemes_levelled lexemes
  have paired : (3, 10) ∈ (Statement.ofLexemes lexemes).pairs := by decide +kernel
  have element : ¬ (Statement.ofLexemes lexemes).NamesAt 3 10 0 := by
    rintro ⟨i, item, _⟩
    have found := (levelled.item_iff paired).mpr item
    have pieces : ((Statement.ofLexemes lexemes).splitCommas 4 10)[0]? = some (4, 8) := by
      decide +kernel
    rw [pieces, Option.some_inj, Prod.mk.injEq] at found
    omega
  exact ⟨by decide +kernel,
    ⟨by decide +kernel, by decide +kernel, by decide +kernel, ⟨_, rfl⟩, rfl,
      .listed (by decide +kernel) (by decide +kernel), by decide +kernel, by decide +kernel⟩,
    .first (by decide +kernel) (by decide +kernel),
    ⟨(levelled.item_iff (by decide +kernel)).mp (by decide +kernel), by decide +kernel⟩,
    ⟨(levelled.item_iff (by decide +kernel)).mp (by decide +kernel), by decide +kernel⟩, element,
    ⟨(levelled.item_iff paired).mp (by decide +kernel), by decide +kernel⟩, by decide +kernel⟩

end AnnotatedSql
