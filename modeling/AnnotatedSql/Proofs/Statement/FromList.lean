import AnnotatedSql.Proofs.Resolution.Tables

/-!
# Lists of tables

The list after `FROM` consists of join chains, separated by commas: a table and the tables joined to
it. It is read by two scans. That of `FROM` reads table after table as long as commas follow, and
that of each `JOIN` the one table after it. So the list is left at the first join, and the tables that
later commas introduce are not read.
-/

namespace AnnotatedSql

/-! ## Spellings -/

namespace Lexeme

/-- The name that a word stands for. -/
def name? (lexeme : Lexeme) : Option Name :=
  match lexeme.kind with
  | .ident => some ⟨lexeme.text, false⟩
  | .quotedIdent =>
    some ⟨String.ofList (undouble (lexeme.text.toList.drop 1).dropLast), true⟩
  | _ => none

/-- Whether the lexeme is one of the keywords. -/
def isOneOf (lexeme : Lexeme) (keywords : List String) : Bool := keywords.any lexeme.isKeyword

/-- Whether tables are named after the lexeme, which follows `previous`. -/
def startsTables (previous lexeme : Lexeme) : Bool :=
  lexeme.isOneOf ["from", "join"] ||
    (lexeme.isKeyword "update" &&
      (previous.kind == .parenOpen || previous.kind == .parenClose || previous.kind == .semicolon)) ||
    (lexeme.isKeyword "into" && previous.isKeyword "insert")

/-- Whether a reference to a table ends before the lexeme. -/
def endsTable (lexeme : Lexeme) : Bool :=
  lexeme.kind == .comma || lexeme.kind == .semicolon ||
    (lexeme.isOneOf Statement.clauseKeywords && !lexeme.isKeyword "as")

end Lexeme

/-- In a run after the lexeme `previous`, no tables are named outside parentheses. -/
inductive Tableless : (previous : Lexeme) → List Lexeme → Prop
  | nil (previous : Lexeme) : Tableless previous []
  | token {previous lexeme : Lexeme} {rest : List Lexeme}
      (plain : lexeme.kind ≠ .parenOpen ∧ lexeme.kind ≠ .parenClose)
      (names : Lexeme.startsTables previous lexeme = false) (others : Tableless lexeme rest) :
      Tableless previous (lexeme :: rest)
  | group {previous opening closing : Lexeme} {inner rest : List Lexeme}
      (opens : opening.kind = .parenOpen) (closes : closing.kind = .parenClose)
      (balanced : Balanced inner) (others : Tableless closing rest) :
      Tableless previous (opening :: (inner ++ closing :: rest))

/-- An alias as written: none, a name, or a name after `AS`. -/
inductive AliasSpelling
  | absent
  | bare (name : Lexeme) (word : name.kind.isWord = true)
      (free : name.isOneOf Statement.clauseKeywords = false)
  | introduced (keyword name : Lexeme) (spelled : keyword.isKeyword "as" = true)
      (word : name.kind.isWord = true) (free : name.isOneOf ["from", "join"] = false)

/-- The lexemes of an alias. -/
def AliasSpelling.lexemes : AliasSpelling → List Lexeme
  | absent => []
  | bare name _ _ => [name]
  | introduced keyword name _ _ _ => [keyword, name]

/-- The name that an alias gives. -/
def AliasSpelling.name? : AliasSpelling → Option Name
  | absent => none
  | bare name _ _ => name.name?
  | introduced _ name _ _ _ => name.name?

/-- A table as written: a name, the names that qualify it, and an alias. The first name is no word
of a clause. -/
structure TableSpelling where
  path : List Lexeme := []
  name : Lexeme
  aliasName : AliasSpelling := .absent
  words : ∀ part ∈ path ++ [name],
    part.kind.isWord = true ∧ part.isOneOf ["from", "join"] = false
  begins : ∀ first ∈ (path ++ [name]).head?,
    first.isOneOf ("only" :: Statement.clauseKeywords) = false

namespace TableSpelling

/-- The lexemes of a table. -/
def lexemes (table : TableSpelling) : List Lexeme :=
  qualifiedName table.path table.name ++ table.aliasName.lexemes

/-- The relation that the table is. -/
def relation? (schema : Schema) (table : TableSpelling) : Option Relation :=
  table.name.name?.bind fun name => schema.relation? name.text name.exact

end TableSpelling

/-- The words that may say which rows a join keeps. -/
def joinSides : List (List String) :=
  [[], ["inner"], ["left"], ["left", "outer"], ["right"], ["right", "outer"], ["full"],
    ["full", "outer"], ["cross"]]

/-- The condition of a join. Tables are named in its parentheses only. -/
structure JoinCondition where
  keyword : Lexeme
  spelled : keyword.isKeyword "on" = true
  tokens : List Lexeme
  tableless : Tableless keyword tokens

/-- A joined table as written: the words before `JOIN`, that word, the table and the condition. -/
structure JoinSpelling where
  words : List Lexeme := []
  keyword : Lexeme
  table : TableSpelling
  condition : Option JoinCondition := none
  kinds : ∃ natural ∈ [[], ["natural"]], ∃ side ∈ joinSides, SpellKeywords words (natural ++ side)
  spelled : keyword.isKeyword "join" = true

/-- The lexemes of a condition. -/
def JoinCondition.lexemes (condition : JoinCondition) : List Lexeme :=
  condition.keyword :: condition.tokens

/-- The lexemes of a joined table. -/
def JoinSpelling.lexemes (join : JoinSpelling) : List Lexeme :=
  join.words ++ join.keyword ::
    (join.table.lexemes ++ (join.condition.map JoinCondition.lexemes).getD [])

/-- A table and the tables joined to it. -/
structure JoinChain where
  head : TableSpelling
  joins : List JoinSpelling := []

namespace JoinChain

/-- The lexemes of a chain. -/
def lexemes (chain : JoinChain) : List Lexeme :=
  chain.head.lexemes ++ chain.joins.flatMap JoinSpelling.lexemes

/-- The lexemes of chains, separated by commas. -/
def listLexemes : JoinChain → List JoinChain → List Lexeme
  | first, [] => first.lexemes
  | first, next :: more => first.lexemes ++ ⟨.comma, ","⟩ :: listLexemes next more

theorem length_le_listLexemes (first : JoinChain) (more : List JoinChain) :
    more.length ≤ (listLexemes first more).length := by
  induction more generalizing first with
  | nil => exact Nat.zero_le _
  | cons next more ih =>
    have shorter := ih next
    simp only [listLexemes, List.length_append, List.length_cons]
    omega

/-- The tables that are joined. -/
def joined (chain : JoinChain) : List TableSpelling := chain.joins.map (·.table)

/-- All tables of chains, in the order of the text. -/
def tables (chains : List JoinChain) : List TableSpelling :=
  chains.flatMap fun chain => chain.head :: chain.joined

/-- The tables that commas lead to, up to the first join. -/
def listed : JoinChain → List JoinChain → List TableSpelling
  | first, [] => [first.head]
  | first, next :: more => first.head :: if first.joins = [] then listed next more else []

/-- The tables that the scans read. -/
def read (first : JoinChain) (more : List JoinChain) : List TableSpelling :=
  listed first more ++ (first :: more).flatMap joined

theorem length_tables (chains : List JoinChain) :
    (tables chains).length = chains.length + (chains.flatMap joined).length := by
  induction chains with
  | nil => rfl
  | cons chain chains ih =>
    unfold tables at ih ⊢
    simp only [List.flatMap_cons, List.length_append, List.length_cons, ih]
    omega

/-- The scans read all tables of the list, in the order of the text, exactly if only the last chain
has joins. -/
theorem read_eq_tables_iff (first : JoinChain) (more : List JoinChain) :
    read first more = tables (first :: more) ↔
      ∀ chain ∈ (first :: more).dropLast, chain.joins = [] := by
  induction more generalizing first with
  | nil => simp [read, tables, listed]
  | cons next more ih =>
    rw [List.dropLast_cons_cons, List.forall_mem_cons, ← ih next]
    by_cases alone : first.joins = []
    · simp [read, tables, listed, joined, alone]
    · refine ⟨fun same => ?_, fun both => absurd both.1 alone⟩
      have length := congrArg List.length same
      rw [read, length_tables, List.length_append, listed, if_neg alone] at length
      simp only [List.length_cons, List.length_nil] at length
      omega

end JoinChain

/-- What may follow the list: nothing, or a semicolon or a word of a clause and then no tables that
are named outside parentheses. -/
inductive FollowsList : List Lexeme → Prop
  | nothing : FollowsList []
  | clause {first : Lexeme} {more : List Lexeme}
      (ends : first.kind = .semicolon ∨ first.isOneOf Statement.clauseKeywords = true)
      (free : first.isOneOf ["as", "from", "join", "update", "into"] = false)
      (tableless : Tableless first more) : FollowsList (first :: more)

/-! ## Single lexemes -/

namespace Lexeme

variable {lexeme previous : Lexeme} {keyword other : String} {keywords : List String}

theorem name_of_word (word : lexeme.kind.isWord = true) : ∃ name, lexeme.name? = some name := by
  unfold name?
  cases kind : lexeme.kind <;> simp_all [TokenKind.isWord]

theorem kind_of_keyword (found : lexeme.isKeyword keyword = true) : lexeme.kind = .ident :=
  eq_of_beq (Bool.and_eq_true_iff.mp found).1

/-- A lexeme is one keyword. -/
theorem isKeyword_eq_false (found : lexeme.isKeyword keyword = true)
    (different : foldCase keyword ≠ foldCase other) : lexeme.isKeyword other = false := by
  refine Bool.eq_false_iff.mpr fun again => different ?_
  simp only [isKeyword, Bool.and_eq_true, equalFold_iff] at found again
  exact found.2.symm.trans again.2

theorem isKeyword_of_isOneOf (none_ : lexeme.isOneOf keywords = false) (listed : keyword ∈ keywords) :
    lexeme.isKeyword keyword = false :=
  Bool.eq_false_iff.mpr fun found => by
    have some_ : lexeme.isOneOf keywords = true := List.any_eq_true.mpr ⟨keyword, listed, found⟩
    rw [none_] at some_
    cases some_

/-- Every word of a clause has more than one letter. -/
theorem isOneOf_of_letter (letter : lexeme.text.length = 1)
    (known : keywords ⊆ "only" :: Statement.clauseKeywords) : lexeme.isOneOf keywords = false := by
  have longer : ∀ keyword ∈ "only" :: Statement.clauseKeywords, keyword.length ≠ 1 := by decide
  refine List.any_eq_false.mpr fun keyword listed found => longer keyword (known listed) ?_
  have same := congrArg String.length (equalFold_iff.mp (Bool.and_eq_true_iff.mp found).2)
  rw [foldCase, foldCase, String.length_map, String.length_map] at same
  exact same.symm.trans letter

theorem isKeyword_of_kind (noWord : lexeme.kind ≠ .ident) : lexeme.isKeyword keyword = false := by
  rw [isKeyword, beq_eq_false_iff_ne.mpr noWord, Bool.false_and]

/-- A word that is none of the four never starts tables. -/
theorem startsTables_of_free (free : ∀ keyword ∈ ["from", "join", "update", "into"],
    lexeme.isKeyword keyword = false) : startsTables previous lexeme = false := by
  simp [startsTables, isOneOf, free]

theorem startsTables_of_kind (noWord : lexeme.kind ≠ .ident) :
    startsTables previous lexeme = false :=
  startsTables_of_free fun _ _ => isKeyword_of_kind noWord

end Lexeme

namespace Tableless

variable {previous : Lexeme} {first rest : List Lexeme}

theorem append (tableless : Tableless previous first) (others : ∀ last, Tableless last rest) :
    Tableless previous (first ++ rest) := by
  induction tableless with
  | nil => exact others _
  | token plain names _ ih => exact .token plain names ih
  | group opens closes balanced _ ih =>
    rw [List.cons_append, List.append_assoc]
    exact .group opens closes balanced ih

/-- Words that never start tables. -/
theorem of_words (free : ∀ lexeme ∈ rest, (lexeme.kind ≠ .parenOpen ∧ lexeme.kind ≠ .parenClose) ∧
    ∀ keyword ∈ ["from", "join", "update", "into"], lexeme.isKeyword keyword = false) :
    Tableless previous rest := by
  induction rest generalizing previous with
  | nil => exact .nil previous
  | cons lexeme rest ih =>
    obtain ⟨plain, names⟩ := free lexeme List.mem_cons_self
    exact .token plain (Lexeme.startsTables_of_free names)
      (ih fun other member => free other (List.mem_cons_of_mem _ member))

end Tableless

theorem plain_of_word {kind : TokenKind} (word : kind.isWord = true) :
    kind ≠ .parenOpen ∧ kind ≠ .parenClose := by
  cases kind <;> simp_all [TokenKind.isWord]

/-- A table that is one word. -/
def TableSpelling.single (name : Lexeme) (word : name.kind.isWord = true)
    (begins : name.isOneOf ("only" :: Statement.clauseKeywords) = false) : TableSpelling where
  name
  words := by
    have noFrom : name.isKeyword "from" = false := Lexeme.isKeyword_of_isOneOf begins (by decide)
    have noJoin : name.isKeyword "join" = false := Lexeme.isKeyword_of_isOneOf begins (by decide)
    simp [Lexeme.isOneOf, word, noFrom, noJoin]
  begins := by
    rintro _ ⟨⟩
    exact begins

theorem AliasSpelling.tableless (aliasName : AliasSpelling) (previous : Lexeme) :
    Tableless previous aliasName.lexemes := by
  cases aliasName with
  | absent => exact .nil previous
  | bare name word free =>
    refine .token (plain_of_word word) (Lexeme.startsTables_of_free fun keyword member => ?_) (.nil _)
    refine Lexeme.isKeyword_of_isOneOf free ?_
    revert member
    revert keyword
    decide
  | introduced keyword name spelled word free =>
    have other : ∀ further, foldCase "as" ≠ foldCase further → keyword.isKeyword further = false :=
      fun _ different => Lexeme.isKeyword_eq_false spelled different
    have kind := Lexeme.kind_of_keyword spelled
    refine .token (by simp [kind]) (Lexeme.startsTables_of_free fun further member => ?_)
      (.token (plain_of_word word) ?_ (.nil _))
    · refine other further ?_
      revert member
      revert further
      simp [foldCase_eq_ofList]
    · simp [Lexeme.startsTables, free, kind, other "insert" (by simp [foldCase_eq_ofList])]

theorem qualifiedName_tableless {previous : Lexeme} {path : List Lexeme} {name : Lexeme}
    (words : ∀ part ∈ path ++ [name],
      part.kind.isWord = true ∧ part.isOneOf ["from", "join"] = false)
    (begins : ∀ first ∈ (path ++ [name]).head?, Lexeme.startsTables previous first = false) :
    Tableless previous (qualifiedName path name) := by
  induction path generalizing previous with
  | nil => exact .token (plain_of_word (words name (by simp)).1) (begins name rfl) (.nil name)
  | cons part path ih =>
    have further : ∀ other ∈ path ++ [name],
        other.kind.isWord = true ∧ other.isOneOf ["from", "join"] = false :=
      fun other member => words other (List.mem_cons_of_mem _ member)
    refine .token (plain_of_word (words part List.mem_cons_self).1) (begins part rfl)
      (.token (by simp) (Lexeme.startsTables_of_kind (by simp)) (ih further fun first head => ?_))
    -- after a dot no word starts a statement, and none follows `INSERT`
    have free := (further first (List.mem_of_mem_head? head)).2
    simp [Lexeme.startsTables, free, Lexeme.isKeyword]

namespace TableSpelling

theorem tableless (table : TableSpelling) (previous : Lexeme) :
    Tableless previous table.lexemes := by
  refine (qualifiedName_tableless table.words fun first head => ?_).append table.aliasName.tableless
  refine Lexeme.startsTables_of_free fun keyword member => ?_
  refine Lexeme.isKeyword_of_isOneOf (table.begins first head) ?_
  revert member
  revert keyword
  decide

end TableSpelling

theorem SpellKeywords.mem {words : List Lexeme} {keywords : List String}
    (spelled : SpellKeywords words keywords) {word : Lexeme} (member : word ∈ words) :
    ∃ keyword ∈ keywords, word.isKeyword keyword = true := by
  induction spelled with
  | nil => cases member
  | cons found _ ih =>
    rcases List.mem_cons.mp member with rfl | member
    · exact ⟨_, List.mem_cons_self, found⟩
    · obtain ⟨keyword, listed, found⟩ := ih member
      exact ⟨keyword, List.mem_cons_of_mem _ listed, found⟩

namespace JoinSpelling

/-- The words that may stand before `JOIN`. -/
def sideWords : List String := ["natural", "inner", "left", "outer", "right", "full", "cross"]

theorem mem_sideWords (join : JoinSpelling) {word : Lexeme} (member : word ∈ join.words) :
    ∃ keyword ∈ sideWords, word.isKeyword keyword = true := by
  have known : ∀ natural ∈ [[], ["natural"]], ∀ side ∈ joinSides, ∀ keyword ∈ natural ++ side,
      keyword ∈ sideWords := by decide
  obtain ⟨natural, isNatural, side, isSide, spelled⟩ := join.kinds
  obtain ⟨keyword, listed, found⟩ := spelled.mem member
  exact ⟨keyword, known natural isNatural side isSide keyword listed, found⟩

theorem words_tableless (join : JoinSpelling) (previous : Lexeme) :
    Tableless previous join.words := by
  refine .of_words fun word member => ?_
  obtain ⟨keyword, listed, found⟩ := join.mem_sideWords member
  have other : ∀ keyword ∈ sideWords, ∀ further ∈ ["from", "join", "update", "into"],
      foldCase keyword ≠ foldCase further := by simp [sideWords, foldCase_eq_ofList]
  exact ⟨by simp [Lexeme.kind_of_keyword found], fun further names =>
    Lexeme.isKeyword_eq_false found (other keyword listed further names)⟩

end JoinSpelling

theorem JoinCondition.tableless_lexemes (condition : JoinCondition) (previous : Lexeme) :
    Tableless previous condition.lexemes := by
  have other : ∀ further ∈ ["from", "join", "update", "into"],
      foldCase "on" ≠ foldCase further := by simp [foldCase_eq_ofList]
  exact .token (by simp [Lexeme.kind_of_keyword condition.spelled])
    (Lexeme.startsTables_of_free fun further names =>
      Lexeme.isKeyword_eq_false condition.spelled (other further names)) condition.tableless

/-- No tables are named outside parentheses in what follows `JOIN`. -/
theorem JoinSpelling.operand_tableless (join : JoinSpelling) (previous : Lexeme) :
    Tableless previous
      (join.table.lexemes ++ (join.condition.map JoinCondition.lexemes).getD []) := by
  refine (join.table.tableless previous).append fun last => ?_
  cases join.condition with
  | none => exact .nil last
  | some condition => exact condition.tableless_lexemes last

theorem FollowsList.tableless {rest : List Lexeme} (follows : FollowsList rest)
    (previous : Lexeme) : Tableless previous rest := by
  cases follows with
  | nothing => exact .nil previous
  | @clause first more ends free tableless =>
    have plain : first.kind ≠ .parenOpen ∧ first.kind ≠ .parenClose := by
      rcases ends with kind | word
      · simp [kind]
      · obtain ⟨keyword, _, found⟩ := List.any_eq_true.mp word
        simp [Lexeme.kind_of_keyword found]
    exact .token plain (Lexeme.startsTables_of_free fun keyword names =>
      Lexeme.isKeyword_of_isOneOf free (List.mem_cons_of_mem _ names)) tableless

/-! ## Where references end -/

/-- A reference to a table ends before the run. -/
def EndsTable (rest : List Lexeme) : Prop := ∀ lexeme ∈ rest.head?, lexeme.endsTable = true

theorem EndsTable.of_keyword {keyword : String} {first : Lexeme} {rest : List Lexeme}
    (found : first.isKeyword keyword = true) (listed : keyword ∈ Statement.clauseKeywords)
    (different : foldCase keyword ≠ foldCase "as") : EndsTable (first :: rest) := by
  rintro _ ⟨⟩
  have some_ : first.isOneOf Statement.clauseKeywords = true :=
    List.any_eq_true.mpr ⟨keyword, listed, found⟩
  simp [Lexeme.endsTable, some_, Lexeme.isKeyword_eq_false found different]

/-- A join begins with a word that ends the table before it, and that is no comma. -/
theorem JoinSpelling.endsTable (join : JoinSpelling) (rest : List Lexeme) :
    EndsTable (join.lexemes ++ rest) ∧
      ∀ first ∈ (join.lexemes ++ rest).head?, first.kind = .ident := by
  have begins : ∃ first more, join.lexemes ++ rest = first :: more ∧
      ∃ keyword ∈ "join" :: sideWords, first.isKeyword keyword = true := by
    cases listed : join.words with
    | nil => exact ⟨join.keyword, _, by simp [lexemes, listed]; rfl, "join", by simp, join.spelled⟩
    | cons first more =>
      have member : first ∈ join.words := by simp [listed]
      obtain ⟨keyword, known, found⟩ := join.mem_sideWords member
      exact ⟨first, _, by simp [lexemes, listed]; rfl, keyword, List.mem_cons_of_mem _ known, found⟩
  obtain ⟨first, more, same, keyword, listed, found⟩ := begins
  have known : ∀ keyword ∈ "join" :: sideWords, keyword ∈ Statement.clauseKeywords := by decide
  have different : ∀ keyword ∈ "join" :: sideWords, foldCase keyword ≠ foldCase "as" := by
    simp [sideWords, foldCase_eq_ofList]
  rw [same]
  refine ⟨.of_keyword found (known keyword listed) (different keyword listed), ?_⟩
  rintro _ ⟨⟩
  exact Lexeme.kind_of_keyword found

theorem JoinCondition.endsTable (condition : Option JoinCondition) {rest : List Lexeme}
    (ends : EndsTable rest) :
    EndsTable ((condition.map JoinCondition.lexemes).getD [] ++ rest) := by
  cases condition with
  | none => exact ends
  | some condition =>
    exact .of_keyword condition.spelled (by decide) (by simp [foldCase_eq_ofList])

theorem FollowsList.endsTable {rest : List Lexeme} (follows : FollowsList rest) :
    EndsTable rest := by
  cases follows with
  | nothing => rintro _ ⟨⟩
  | @clause first more ends free _ =>
    rintro _ ⟨⟩
    rcases ends with kind | word
    · simp [Lexeme.endsTable, kind]
    · have bare : first.isKeyword "as" = false := Lexeme.isKeyword_of_isOneOf free (by simp)
      simp [Lexeme.endsTable, word, bare]

theorem FollowsList.noComma {rest : List Lexeme} (follows : FollowsList rest) :
    ∀ lexeme ∈ rest.head?, lexeme.kind ≠ .comma := by
  cases follows with
  | nothing => rintro _ ⟨⟩
  | clause ends _ _ =>
    rintro _ ⟨⟩
    rcases ends with kind | word
    · simp [kind]
    · obtain ⟨keyword, _, found⟩ := List.any_eq_true.mp word
      simp [Lexeme.kind_of_keyword found]

end AnnotatedSql
