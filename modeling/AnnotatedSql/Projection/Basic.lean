import AnnotatedSql.Projection.Expression

/-!
# Projections

The projection of a statement is its `SELECT` list, or the `RETURNING` list of a statement that
changes data. Each item gives columns or one finding. A statement without a projection is run for
the number of rows it affects.
-/

namespace AnnotatedSql

/-- A column of the rows that a query returns. -/
structure ResultColumn where
  name : String
  type : DataType
  nullable : Bool
  deriving DecidableEq, Repr

namespace ResultColumn

/-- The owned Rust type that holds a value, optional if the column may be null. -/
def rustType? (column : ResultColumn) : Option String :=
  column.type.rustType?.map fun type =>
    if column.nullable then "Option<" ++ type ++ ">" else type

/-- The column of a scope as it stands. -/
def ofFound (found : FoundColumn) : ResultColumn :=
  ⟨found.column.name, found.column.type, found.nullable⟩

end ResultColumn

namespace Statement

/-- Whether token `i` stands outside all parentheses. -/
def isTop (s : Statement) (i : Nat) : Bool := (s.enclosing i).isNone

/-- The first token from `lo` to before `hi`, outside all parentheses, that satisfies a test. -/
def findTop? (s : Statement) (lo hi : Nat) (test : Nat → Bool) : Option Nat :=
  (List.range' lo (hi - lo)).find? fun i => s.isTop i && test i

/-- The words that end a `SELECT` list. -/
def selectListEnd : List String := [
  "from", "into", "where", "group", "having", "window", "order", "limit", "offset", "fetch",
  "for", "union", "except", "intersect"]

/-- Where the list of the `SELECT` at token `i` starts, after `ALL`, `DISTINCT` or
`DISTINCT ON (…)`. -/
def selectListStart (s : Statement) (i : Nat) : Nat :=
  if s.isKeyword (i + 1) "all" then i + 2
  else if s.isKeyword (i + 1) "distinct" then
    if s.isKeyword (i + 2) "on" then
      match s.partner (i + 3) with
      | some closing => closing + 1
      | none => i + 2
    else i + 2
  else i + 1

/-- The range of the projection list. -/
def projectionRange? (s : Statement) : Option (Nat × Nat) := do
  let verb ← s.findTop? 0 s.size
    (s.isOneOf · ["select", "insert", "update", "delete", "values"])
  let stop := (s.findTop? verb s.size (s.is · .semicolon)).getD s.size
  if s.isKeyword verb "select" then
    let lo := s.selectListStart verb
    return (lo, (s.findTop? lo stop (s.isOneOf · selectListEnd)).getD stop)
  else if s.isKeyword verb "values" then none
  else
    let returning ← s.findTop? verb stop (s.isKeyword · "returning")
    return (returning + 1, stop)

/-- The items of the projection list. -/
def projectionItems? (s : Statement) : Option (List (Nat × Nat)) :=
  s.projectionRange?.map fun (lo, hi) => s.splitCommas lo hi

/-- Whether the item is `*`. -/
def isStar (s : Statement) (lo hi : Nat) : Bool := hi == lo + 1 && s.is lo .star

/-- The qualifier of an item that is `q.*`. -/
def starQualifier? (s : Statement) (lo hi : Nat) : Option Name :=
  if hi == lo + 3 && s.is (lo + 1) .dot && s.is (lo + 2) .star then s.name? lo else none

/-- Whether the item ends in `AS name`. -/
def hasAlias (s : Statement) (lo hi : Nat) : Bool :=
  decide (lo + 3 ≤ hi) && s.isKeyword (hi - 2) "as" && s.isWord (hi - 1)

/-- Whether the last word of the item may be an alias without `AS`. -/
def mayEndInAlias (s : Statement) (lo hi : Nat) : Bool :=
  decide (lo + 2 ≤ hi) && s.isWord (hi - 1) && !s.isClauseKeyword (hi - 1) &&
    !(s.is (hi - 2) .dot || s.is (hi - 2) .doubleColon)

end Statement

namespace Surroundings

/-- An item that is an expression up to `hi` under the alias at token `last`. -/
def aliased (env : Surroundings) (lo hi last : Nat) : Except ExpressionFault Expression := do
  let expression ← env.expression lo hi
  return { expression with
           name := ((env.statement.name? last).map Name.text).getD expression.name }

/-- An item that is one column. An expression of no known form may be one with an alias. -/
def single (env : Surroundings) (lo hi : Nat) : Except ExpressionFault Expression :=
  let s := env.statement
  if s.hasAlias lo hi then env.aliased lo (hi - 2) (hi - 1)
  else
    match env.expression lo hi with
    | .error .untyped =>
      if s.mayEndInAlias lo hi then env.aliased lo (hi - 1) (hi - 1) else .error .untyped
    | outcome => outcome

/-- The columns of one item of the projection. -/
def item (env : Surroundings) (lo hi : Nat) : Except Finding (List ResultColumn) :=
  let s := env.statement
  let entries := env.scope.statementEntries
  if s.isStar lo hi then .ok ((entries.flatMap ScopeEntry.columns).map .ofFound)
  else
    match s.starQualifier? lo hi with
    | some qualifier =>
      match entries.find? (·.answersTo qualifier) with
      | some entry => .ok (entry.columns.map .ofFound)
      | none => .error ⟨.unknownRelation qualifier.text, .token lo⟩
    | none =>
      match env.single lo hi with
      | .ok expression => .ok [⟨expression.name, expression.type, expression.nullable⟩]
      | .error (.failed finding) => .error finding
      | .error .untyped => .error ⟨.untypedExpression, .tokens lo hi⟩

end Surroundings

/-- What running a query gives. -/
inductive QueryResult
  | rows (columns : List ResultColumn)
  /-- The number of affected rows. -/
  | execute
  deriving DecidableEq, Repr

/-- The columns of the rows, if there are rows. -/
def QueryResult.columns : QueryResult → List ResultColumn
  | rows columns => columns
  | execute => []

/-- The result of a statement: the columns of all its items in order, or what is wrong with each
faulty item. -/
def project (env : Surroundings) : Analyzed QueryResult :=
  match env.statement.projectionItems? with
  | none => ⟨some .execute, []⟩
  | some items =>
    let outcomes := items.map fun (lo, hi) => env.item lo hi
    let findings := outcomes.filterMap fun
      | .error finding => some finding
      | .ok _ => none
    let columns := (outcomes.filterMap Except.toOption).flatten
    ⟨if findings.isEmpty then some (.rows columns) else none, findings⟩

end AnnotatedSql
