import AnnotatedSql.Proofs.Resolution.Typed
import AnnotatedSql.Proofs.Schema.Declared
import AnnotatedSql.Proofs.Statement.FromScan
import AnnotatedSql.Proofs.Statement.Items

/-!
# Inserted values

The values of a row are matched with the columns by place. The items of the column list that are no
plain names are passed over when the columns are looked up, but not when their places are counted, so
that after such an item a value meets the column of a later place.
-/

namespace AnnotatedSql

/-! ## Filtered lists -/

section Filter

variable {α : Type} {test : α → Bool} {items : List α} {item : α} {k : Nat}

/-- The items before one that passes are as many as the places it moves up by, or more. -/
theorem getElem?_filter_some (found : (items.filter test)[k]? = some item) :
    ∃ place, k ≤ place ∧ items[place]? = some item ∧ test item = true ∧
      (place = k ↔ ∀ before ≤ k, ∃ other, items[before]? = some other ∧ test other = true) := by
  induction items generalizing k with
  | nil => cases found
  | cons first items ih =>
    cases passes : test first with
    | true =>
      rw [List.filter_cons_of_pos passes] at found
      cases k with
      | zero =>
        cases found
        exact ⟨0, Nat.le_refl 0, rfl, passes, fun _ before atMost =>
          ⟨item, by rw [Nat.le_zero.mp atMost]; rfl, passes⟩, fun _ => rfl⟩
      | succ k =>
        obtain ⟨place, later, stands, good, same⟩ := ih found
        refine ⟨place + 1, by omega, stands, good, ?_⟩
        rw [Nat.add_right_cancel_iff, same]
        constructor
        · intro all before atMost
          cases before with
          | zero => exact ⟨first, rfl, passes⟩
          | succ before => exact all before (by omega)
        · exact fun all before atMost => all (before + 1) (by omega)
    | false =>
      rw [List.filter_cons_of_neg (by simp [passes])] at found
      obtain ⟨place, later, stands, good, _⟩ := ih found
      refine ⟨place + 1, by omega, stands, good, fun same => by omega, fun all => ?_⟩
      obtain ⟨other, same, passesToo⟩ := all 0 (Nat.zero_le k)
      cases same
      rw [passes] at passesToo
      cases passesToo

/-- An item keeps its place if all items up to it pass. -/
theorem getElem?_filter_of_all
    (all : ∀ before ≤ k, ∃ other, items[before]? = some other ∧ test other = true) :
    (items.filter test)[k]? = items[k]? := by
  induction items generalizing k with
  | nil => rfl
  | cons first items ih =>
    obtain ⟨other, same, passes⟩ := all 0 (Nat.zero_le k)
    cases same
    rw [List.filter_cons_of_pos passes]
    cases k with
    | zero => rfl
    | succ k => exact ih fun before atMost => all (before + 1) (by omega)

end Filter

/-! ## The column list -/

namespace Statement

/-- Item `k` of what the parentheses enclose is a plain name. -/
def NamesAt (s : Statement) (opening closing k : Nat) : Prop :=
  ∃ i, s.ItemAt opening closing k i ∧ s.isWord i = true

/-- The list of columns after the relation, by its closing parenthesis if there is one, and where the
word `VALUES` is to follow. -/
inductive ColumnList (s : Statement) (after : Nat) : Option Nat → Nat → Prop
  | absent : ColumnList s after none after
  | listed {closing : Nat} (opens : s.is after .parenOpen = true)
      (paired : s.partner after = some closing) : ColumnList s after (some closing) (closing + 1)

/-- The statement begins with `INSERT INTO`, a relation that ends before token `first`, perhaps a list
of columns there, and `VALUES`, and no other part of it inserts. -/
structure InsertsValues (s : Statement) (path : List Lexeme) (name : Lexeme) (first : Nat)
    (list : Option Nat) (values : Nat) : Prop where
  insert : s.isKeyword 0 "insert" = true
  into : s.isKeyword 1 "into" = true
  words : ∀ part ∈ path ++ [name], part.kind.isWord = true
  target : s.HasAt 2 (qualifiedName path name)
  ends : 2 + (qualifiedName path name).length = first
  columns : s.ColumnList first list values
  word : s.isKeyword values "values" = true
  alone : ∀ i < s.size, 2 ≤ i → s.isKeyword i "into" = true → s.isKeyword (i - 1) "insert" = true →
    s.isClauseLevel i = false

/-- The column of the relation that token `i` names. -/
def listedColumn? (s : Statement) (relation : Relation) (i : Nat) : Option Column :=
  (s.name? i).bind fun name => relation.column? name.text name.exact

end Statement

namespace Scope

variable {s : Statement} {relation : Relation} {columns : List Column} {opening closing k : Nat}

/-- Where the columns are known, each plain name of the list has its column. -/
theorem listedColumns_get {items : List (Nat × Nat)}
    (known : listedColumns s relation items = .ok columns) :
    (items.filter fun (lo, hi) => hi == lo + 1 && s.isWord lo).map (s.listedColumn? relation ·.1) =
      columns.map some := by
  have related : List.Forall₂ (fun item column => s.listedColumn? relation item.1 = some column)
      (items.filter fun (lo, hi) => hi == lo + 1 && s.isWord lo) columns := by
    refine forall₂_of_mapM (fun item column found => ?_) known
    dsimp only at found
    split at found
    next column named =>
      cases found
      exact named
    · cases found
  exact List.forall₂_eq_eq_eq ▸ List.forall₂_map_left_iff.mpr (List.forall₂_map_right_iff.mpr related)

end Scope

/-! ## The target -/

namespace Scope

variable {schema : Schema} {s : Statement} {scope after : Scope} {action : ScopeStep}

/-- Only an insertion changes what is written to. -/
theorem step_insert (other : ∀ reference source, action ≠ .insertion reference source)
    (stepped : scope.step schema s action = .ok after) : after.insert = scope.insert := by
  cases step_effect stepped with
  | unnamedTarget _ => rfl
  | @target reference source _ _ _ _ _ _ _ => exact absurd rfl (other reference source)
  | _ => rfl

end Scope

namespace Statement

variable {s : Statement}

theorem ColumnList.spelled {after values : Nat} {list : Option Nat} (columns : s.ColumnList after list values)
    (word : s.isKeyword values "values" = true) :
    s.is after .dot = false ∧ s.isKeyword after "as" = false ∧
      (s.isWord after && !s.isClauseKeyword after) = false ∧
      s.insertSource after = ⟨list.map fun closing => s.splitCommas (after + 1) closing,
        s.valueRows s.size (values + 1)⟩ := by
  cases columns with
  | absent =>
    have noGroup : s.is after .parenOpen = false := is_eq_false (is_of_keyword word) (by simp)
    have clause : s.isClauseKeyword after = true :=
      List.any_eq_true.mpr ⟨"values", by decide, word⟩
    refine ⟨is_eq_false (is_of_keyword word) (by simp), Bool.eq_false_iff.mpr fun again => ?_, ?_, ?_⟩
    · have same := foldCase_eq_of_keyword again word
      simp [foldCase_eq_ofList] at same
    · rw [clause, Bool.not_true, Bool.and_false]
    · simp [insertSource, noGroup, word]
  | listed opens paired =>
    have noWord : s.is after .ident = false := is_eq_false opens (by simp)
    refine ⟨is_eq_false opens (by simp), ?_, ?_, ?_⟩
    · rw [isKeyword, noWord, Bool.false_and]
    · rw [isWord, eq_of_beq opens]
      rfl
    · simp [insertSource, opens, paired, word]

namespace InsertsValues

variable {path : List Lexeme} {name : Lexeme} {first : Nat} {list : Option Nat} {values : Nat}
  (inserts : s.InsertsValues path name first list values)

include inserts

/-- The relation is read as it is spelled. -/
theorem relationReference : ∃ reference, s.relationReference? 2 = some reference ∧
    reference.relation.map Prod.fst = name.name? ∧ reference.next = first := by
  obtain ⟨noDot, noAs, noAlias, _⟩ := inserts.columns.spelled inserts.word
  obtain ⟨begins, last, found, named, followed⟩ := followDots_qualified inserts.words inserts.target
    (inserts.ends ▸ noDot) (Nat.le_trans (length_le_qualifiedName _ _) inserts.target.length_le_size)
  have object : s.objectName 2 = some (last, first) := by
    rw [objectName, found, Option.map_some, followed, inserts.ends]
  have noName : s.aliasAt first = (none, first) := by
    simp [aliasAt, noAs, noAlias]
  refine ⟨⟨some (last, first - 1), 2, none, first⟩, ?_, named.symm, rfl⟩
  simp [relationReference?, object, noName]

/-- Its columns take the values of the rows. -/
theorem insert_eq {schema : Schema} {scope : Scope} (levelled : s.Levelled)
    {relation : Relation} (built : Scope.ofStatement schema s = .ok scope)
    (known : (name.name?.bind fun name => schema.relation? name.text name.exact) = some relation) :
    ∃ columns, scope.insert = some ⟨columns, s.valueRows s.size (values + 1)⟩ ∧
      match list with
      | none => columns = relation.columns
      | some closing =>
        Scope.listedColumns s relation (s.splitCommas (first + 1) closing) = .ok columns := by
  obtain ⟨reference, read, names, next⟩ := inserts.relationReference
  obtain ⟨_, _, _, source⟩ := inserts.columns.spelled inserts.word
  obtain ⟨⟨target, i⟩, named, same⟩ : ∃ pair : Name × Nat, reference.relation = some pair ∧
      schema.relation? pair.1.text pair.1.exact = some relation := by
    obtain ⟨target, spelled, found⟩ := Option.bind_eq_some_iff.mp known
    obtain ⟨pair, named, rfl⟩ := Option.map_eq_some_iff.mp (names.trans spelled)
    exact ⟨pair, named, found⟩
  -- the words `INSERT INTO` stand first
  have direct : s.isClauseLevel 1 = true :=
    levelled.isClauseLevel_of_top (closesNothing_of_is (is_of_keyword inserts.into) (by simp))
      ((level_of_keyword inserts.insert).trans s.level_zero)
  have other : ∀ keyword ∈ ["from", "join", "update"], s.isKeyword 1 keyword = false := by
    have apart : ∀ keyword ∈ ["from", "join", "update"], foldCase keyword ≠ foldCase "into" := by
      simp [foldCase_eq_ofList]
    exact fun keyword listed => Bool.eq_false_iff.mpr fun found =>
      apart keyword listed (foldCase_eq_of_keyword found inserts.into)
  have atInsert : s.scopeStepsAt 0 = [] :=
    scopeStepsAt_of_keyword inserts.insert (by simp [foldCase_eq_ofList])
  have atInto : s.scopeStepsAt 1 = [.insertion reference (s.insertSource reference.next)] := by
    simp [scopeStepsAt, direct, other, inserts.into, inserts.insert, read]
  obtain ⟨more, size⟩ := Nat.exists_eq_add_of_le' (lt_size_of_keyword inserts.into)
  have steps : s.scopeSteps = .insertion reference (s.insertSource reference.next) :: s.stepsIn 2 more := by
    rw [scopeSteps_eq, size, stepsIn_succ, stepsIn_succ, atInsert, atInto]
    rfl
  rw [Scope.ofStatement, steps, List.foldlM_cons] at built
  obtain ⟨middle, stepped, built⟩ := bind_success built
  have kept : scope.insert = middle.insert := by
    refine foldlM_keeps (fun later => later.insert = middle.insert) (fun before after action listed
      same stepped => (Scope.step_insert (fun reference source again => ?_) stepped).trans same) rfl built
    obtain ⟨k, member, listed⟩ := List.mem_flatMap.mp listed
    obtain ⟨direct, into, _, insert⟩ := insertion_of_mem (again ▸ listed)
    have inside := inserts.alone k (lt_size_of_keyword into) (List.mem_range'_1.mp member).1 into insert
    rw [direct] at inside
    cases inside
  rw [kept]
  generalize written : s.insertSource reference.next = origin at stepped
  rw [next, source] at written
  cases Scope.step_effect stepped with
  | unnamedTarget unnamed =>
    rw [unnamed] at named
    cases named
  | target namedToo found chosen =>
    subst written
    cases namedToo.symm.trans named
    obtain rfl := Option.some.inj (found.symm.trans same)
    cases list with
    | none =>
      obtain ⟨_, rfl⟩ | ⟨_, impossible, _⟩ := chosen
      · exact ⟨_, rfl, rfl⟩
      · cases impossible
    | some closing =>
      obtain ⟨impossible, _⟩ | ⟨_, given, listed⟩ := chosen
      · cases impossible
      · cases given
        exact ⟨_, rfl, listed⟩

end InsertsValues

end Statement

/-! ## Values -/

namespace Statement

variable {s : Statement} {i k opening closing start : Nat}

/-- A placeholder without a cast is its own operand, if it does not follow `CAST (`. -/
theorem operand_of_uncast (uncast : s.castHint? i = none)
    (noCast : s.is (i - 1) .parenOpen = true → s.isKeyword (i - 2) "cast" = false) :
    s.operand i = (i, i) := by
  have plain : (decide (2 ≤ i) && s.is (i - 1) .parenOpen && s.isKeyword (i - 2) "cast") = false := by
    cases open_ : s.is (i - 1) .parenOpen with
    | false => simp
    | true => simp [noCast open_]
  unfold castHint? at uncast
  unfold operand
  generalize s.unwrapParens i i = range at uncast ⊢
  obtain ⟨lo, hi⟩ := range
  dsimp only at uncast ⊢
  rw [plain]
  split at uncast
  next colons =>
    rw [if_pos colons, uncast]
    rfl
  next plain =>
    rw [if_neg plain]
    rfl

/-- What stands beside an item that is one token are the parentheses or commas. -/
theorem ItemAt.beside (item : s.ItemAt opening closing k i) (opens : s.is opening .parenOpen = true)
    (closes : s.is closing .parenClose = true) :
    (s.is (i - 1) .parenOpen = true ∧ i - 1 = opening ∨ s.is (i - 1) .comma = true) ∧
      (s.is (i + 1) .parenClose = true ∨ s.is (i + 1) .comma = true) := by
  constructor
  · rcases item.begins with rfl | comma
    · exact Or.inl ⟨opens, rfl⟩
    · exact Or.inr (is_comma_of_separates comma)
  · rcases item.ends with rfl | comma
    · exact Or.inl closes
    · exact Or.inr (is_comma_of_separates comma)

/-- An item is enclosed by its parentheses. -/
theorem Levelled.enclosing_item (levelled : s.Levelled) (item : s.ItemAt opening closing k i)
    (opens : s.is opening .parenOpen = true) (inner : s.ClosesNothing i) :
    s.enclosing i = some opening := by
  rw [(levelled.enclosers_of_level inner).2]
  rcases item.begins with rfl | separates
  · rw [level_of_open opens]
    rfl
  · have comma := is_comma_of_separates separates
    have around := (levelled.enclosers_of_level (closesNothing_of_is comma (by simp))).2
    have same : i - 1 + 1 = i := by
      have := item.within.1
      omega
    rw [← same, level_of_is comma (by simp) (by simp), ← around, enclosing_of_separates separates]

theorem isKeyword_of_not_ident (noWord : s.is i .ident = false) (keyword : String) :
    s.isKeyword i keyword = false := by
  rw [isKeyword, noWord, Bool.false_and]

theorem isComparison_of_is {kind : TokenKind} (found : s.is i kind = true) (noWord : kind ≠ .ident) :
    s.isComparison i = kind.isComparison := by
  simp [isComparison, isOneOf, isKeyword_of_not_ident (is_eq_false found noWord), eq_of_beq found]

theorem closesNothing_of_isParam (param : s.isParam i = true) : s.ClosesNothing i := by
  unfold isParam at param
  cases found : s.kind? i with
  | none => simp [found] at param
  | some kind =>
    have isKind : s.is i kind = true := by rw [is, found]; exact beq_self_eq_true _
    refine closesNothing_of_is isKind ?_
    rintro rfl
    simp [found, TokenKind.isParam] at param

end Statement

namespace Typing

variable {s : Statement} {scope : Scope} {i k opening closing start : Nat}

/-- What stands beside a value of its own asks for no type. -/
theorem contextType_of_item (levelled : s.Levelled) (item : s.ItemAt opening closing k i)
    (paired : (opening, closing) ∈ s.pairs) (param : s.isParam i = true)
    (uncast : s.castHint? i = none)
    (free : ∀ keyword ∈ ["in", "cast"], s.isKeyword (opening - 1) keyword = false) :
    contextType s scope i = insertedValue s scope i i := by
  have opens := levelled.opens paired
  obtain ⟨before, after⟩ := item.beside opens (levelled.closes paired)
  have noWord : ∀ keyword, s.isKeyword (i - 1) keyword = false := by
    refine Statement.isKeyword_of_not_ident ?_
    rcases before with ⟨found, _⟩ | found <;> exact Statement.is_eq_false found (by simp)
  have noWordToo : ∀ keyword, s.isKeyword (i + 1) keyword = false := by
    refine Statement.isKeyword_of_not_ident ?_
    rcases after with found | found <;> exact Statement.is_eq_false found (by simp)
  have noOperator : s.isComparison (i - 1) = false := by
    rcases before with ⟨found, _⟩ | found <;> exact Statement.isComparison_of_is found (by simp)
  have noOperatorToo : s.isComparison (i + 1) = false := by
    rcases after with found | found <;> exact Statement.isComparison_of_is found (by simp)
  have operand : s.operand i = (i, i) := by
    refine Statement.operand_of_uncast uncast fun found => ?_
    rcases before with ⟨_, same⟩ | comma
    · rw [show i - 2 = opening - 1 by omega]
      exact free "cast" (by simp)
    · rw [Statement.is_eq_false comma (by simp)] at found
      cases found
  have around := levelled.enclosing_item item opens (Statement.closesNothing_of_isParam param)
  simp [contextType, operand, rowCount, comparedAfter, comparedBefore, lowerBound, upperBound,
    listMember, Statement.isOneOf, noWord, noWordToo, noOperator, noOperatorToo, around,
    free "in" (by simp)]

/-- A placeholder that is a value of its own asks for the type of the column in its place. -/
theorem contextType_of_value {columns : List Column} (levelled : s.Levelled)
    (target : scope.insert = some ⟨columns, s.valueRows s.size (start + 1)⟩)
    (word : s.isKeyword start "values" = true) (row : s.RowAt (start + 1) opening closing)
    (param : s.isParam i = true) (uncast : s.castHint? i = none)
    (item : s.ItemAt opening closing k i) :
    contextType s scope i = columns[k]?.map (.ok ·.type) := by
  have paired := levelled.pair_of_partner row.opens row.paired
  have free : ∀ keyword ∈ ["in", "cast"], s.isKeyword (opening - 1) keyword = false := by
    have apart : ∀ keyword ∈ ["in", "cast"], foldCase keyword ≠ foldCase "values" := by
      simp [foldCase_eq_ofList]
    intro keyword listed
    rcases row.preceded with rfl | comma
    · exact Bool.eq_false_iff.mpr fun found =>
        apart keyword listed (Statement.foldCase_eq_of_keyword found word)
    · exact Statement.isKeyword_of_not_ident (Statement.is_eq_false comma (by simp)) keyword
  have here : valueIndex? s i i (opening, closing) = some k := by
    rw [valueIndex?, if_pos (by simpa using item.within)]
    exact levelled.findIdx_item paired item
  have index : (s.valueRows s.size (start + 1)).findSome? (valueIndex? s i i) = some k := by
    refine row.findSome levelled (by omega) here fun first last ends => if_neg ?_
    have := item.within.1
    simp
    omega
  rw [contextType_of_item levelled item paired param uncast free, insertedValue, target]
  simp only [Option.bind_eq_bind, Option.bind_some, index]
  cases columns[k]? <;> rfl

end Typing

end AnnotatedSql
