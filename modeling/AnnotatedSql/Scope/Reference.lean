import AnnotatedSql.Statement.Name

/-!
# References to tables

The places where a statement names the tables that it works on: in `FROM`, `JOIN`, `UPDATE` and
`INSERT INTO`. Each is read from the tokens alone. What they mean for the scope of the statement is
a list of steps in the order of the text.
-/

namespace AnnotatedSql

/-- A table as a statement refers to it. -/
structure TableReference where
  /-- The relation's name and the token it stands at. A derived table and a function have none. -/
  relation : Option (Name × Nat)
  /-- The first token. -/
  start : Nat
  aliasName : Option Name
  /-- The index after the last token. -/
  next : Nat
  deriving DecidableEq, Repr

/-- The part of an `INSERT` after the relation. -/
structure InsertSource where
  /-- The items of the column list, if there is one. -/
  columns : Option (List (Nat × Nat))
  /-- The opening and closing parentheses of each row of values. -/
  rows : List (Nat × Nat)
  deriving DecidableEq, Repr

/-- What a part of the statement does to its scope. -/
inductive ScopeStep
  /-- A table comes into scope. -/
  | table (reference : TableReference) (nullable : Bool)
  /-- All tables of the subquery that are in scope may be absent from a row. -/
  | absent (context : Option Nat)
  /-- A table comes into scope and takes the rows. -/
  | insertion (reference : TableReference) (source : InsertSource)
  deriving DecidableEq, Repr

namespace Statement

/-- The alias written at token `i`, and the index after it and its column names. -/
def aliasAt (s : Statement) (i : Nat) : Option Name × Nat :=
  let written :=
    if s.isKeyword i "as" then (s.name? (i + 1)).map (·, i + 2)
    else if s.isWord i && !s.isClauseKeyword i then (s.name? i).map (·, i + 1)
    else none
  match written with
  | some (name, next) => (some name, s.skipGroup next)
  | none => (none, i)

/-- The relation named at token `i`, with its alias. -/
def relationReference? (s : Statement) (i : Nat) : Option TableReference :=
  (s.objectName i).map fun (name, after) =>
    let (aliasName, next) := s.aliasAt after
    { relation := some (name, after - 1), start := i, aliasName, next }

/-- A reference without a relation that ends in the parentheses opening at token `i`. -/
def groupReference? (s : Statement) (start i : Nat) : Option TableReference :=
  (s.partner i).map fun closing =>
    let (aliasName, next) := s.aliasAt (closing + 1)
    { relation := none, start, aliasName, next }

/-- Skips at most `fuel` of the words that may stand before a table. -/
def skipTableWords (s : Statement) : Nat → Nat → Nat
  | 0, i => i
  | fuel + 1, i => if s.isOneOf i ["only", "lateral"] then s.skipTableWords fuel (i + 1) else i

/-- The table that the tokens from `i` on refer to. -/
def tableReference? (s : Statement) (i : Nat) : Option TableReference :=
  let start := s.skipTableWords s.size i
  if s.is start .parenOpen then s.groupReference? start start
  else if s.isClauseKeyword start then none
  else
    match s.objectName start with
    | none => none
    | some (_, next) =>
      if s.is next .parenOpen then s.groupReference? start next else s.relationReference? start

/-- At most `fuel` tables, separated by commas. -/
def tableList (s : Statement) : Nat → Nat → List TableReference
  | 0, _ => []
  | fuel + 1, i =>
    match s.tableReference? i with
    | none => []
    | some reference =>
      reference ::
        if s.is reference.next .comma then s.tableList fuel (reference.next + 1) else []

/-- Whether token `i` stands directly in a query. Words within other parentheses, as in
`extract(x FROM y)`, start no clause. -/
def isClauseLevel (s : Statement) (i : Nat) : Bool :=
  match s.enclosing i with
  | none => true
  | some opening => s.opensSubquery opening

/-- Whether a statement may start at token `i`. -/
def startsStatement (s : Statement) (i : Nat) : Bool :=
  i == 0 || s.is (i - 1) .parenOpen || s.is (i - 1) .parenClose || s.is (i - 1) .semicolon

/-- Whether the join at token `i` is of the given kind. -/
def isJoin (s : Statement) (i : Nat) (kind : String) : Bool :=
  let side := if 0 < i && s.isKeyword (i - 1) "outer" then i - 1 else i
  decide (0 < side) && s.isKeyword (side - 1) kind

/-- The join at token `i`. A right or full join lets the earlier tables of its query be absent, a
left or full join the table it adds. -/
def joinSteps (s : Statement) (i : Nat) : List ScopeStep :=
  let earlier := if s.isJoin i "right" || s.isJoin i "full" then
    [ScopeStep.absent (s.queryContext i)] else []
  let added := (s.tableReference? (i + 1)).map fun reference =>
    ScopeStep.table reference (s.isJoin i "left" || s.isJoin i "full")
  earlier ++ added.toList

/-- At most `fuel` rows of values, separated by commas. -/
def valueRows (s : Statement) : Nat → Nat → List (Nat × Nat)
  | 0, _ => []
  | fuel + 1, i =>
    if s.is i .parenOpen then
      match s.partner i with
      | none => []
      | some closing =>
        (i, closing) ::
          if s.is (closing + 1) .comma then s.valueRows fuel (closing + 2) else []
    else []

/-- The column list and the rows from token `i` on. -/
def insertSource (s : Statement) (i : Nat) : InsertSource :=
  let list := if s.is i .parenOpen then s.partner i else none
  let next := match list with
    | some closing => closing + 1
    | none => i
  { columns := list.map fun closing => s.splitCommas (i + 1) closing
    rows := if s.isKeyword next "values" then s.valueRows s.size (next + 1) else [] }

/-- What the word at token `i` does to the scope. -/
def scopeStepsAt (s : Statement) (i : Nat) : List ScopeStep :=
  if !s.isClauseLevel i then []
  else if s.isKeyword i "from" then (s.tableList s.size (i + 1)).map (.table · false)
  else if s.isKeyword i "join" then s.joinSteps i
  else if s.isKeyword i "update" && s.startsStatement i then
    (s.tableReference? (i + 1)).toList.map (.table · false)
  else if s.isKeyword i "into" && 0 < i && s.isKeyword (i - 1) "insert" then
    (s.relationReference? (i + 1)).toList.map fun reference =>
      .insertion reference (s.insertSource reference.next)
  else []

/-- All steps that build the scope of the statement. -/
def scopeSteps (s : Statement) : List ScopeStep := (List.range s.size).flatMap s.scopeStepsAt

end Statement

end AnnotatedSql
