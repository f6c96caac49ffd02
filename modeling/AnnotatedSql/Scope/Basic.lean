import AnnotatedSql.Finding
import AnnotatedSql.Schema.Basic
import AnnotatedSql.Scope.Reference

/-!
# Scopes

The scope of a statement holds the relations it refers to, each in the subquery that names it. A
column is looked for in the innermost query first and then outwards; the first query that knows it
decides.
-/

namespace AnnotatedSql

/-- A relation in scope. -/
structure ScopeEntry where
  relation : Relation
  aliasName : Option Name
  /-- An outer join may leave the relation out of a row. -/
  nullable : Bool
  /-- The subquery that names the relation; none at statement level. -/
  context : Option Nat
  deriving DecidableEq, Repr

/-- What an `INSERT` writes to. -/
structure InsertTarget where
  columns : List Column
  /-- The parentheses of each row of values. -/
  rows : List (Nat × Nat)
  deriving DecidableEq, Repr

/-- The relations in scope, in order of appearance, and the target of an `INSERT`. -/
structure Scope where
  entries : List ScopeEntry := []
  insert : Option InsertTarget := none
  deriving DecidableEq, Repr

/-- A column as an expression names it. -/
structure ColumnName where
  qualifier : Option Name
  column : Name
  deriving DecidableEq, Repr

/-- The name as messages write it, without quotes. -/
def ColumnName.display (name : ColumnName) : String :=
  match name.qualifier with
  | some qualifier => qualifier.text ++ "." ++ name.column.text
  | none => name.column.text

/-- Whether an entry goes by a name: by its alias if it has one. -/
def ScopeEntry.answersTo (entry : ScopeEntry) (qualifier : Name) : Bool :=
  match entry.aliasName with
  | some name => qualifier.matches name.text
  | none => qualifier.matches entry.relation.name

/-- A column found in scope. -/
structure FoundColumn where
  column : Column
  /-- The column may be null, or its relation absent. -/
  nullable : Bool
  deriving DecidableEq, Repr

/-- The column of an entry that the name stands for. -/
def ScopeEntry.column? (entry : ScopeEntry) (name : ColumnName) : Option FoundColumn :=
  if name.qualifier.all entry.answersTo then
    (entry.relation.column? name.column.text name.column.exact).map fun column =>
      ⟨column, column.nullable || entry.nullable⟩
  else none

/-- All columns of an entry. -/
def ScopeEntry.columns (entry : ScopeEntry) : List FoundColumn :=
  entry.relation.columns.map fun column => ⟨column, column.nullable || entry.nullable⟩

/-- Why a column is not found. -/
inductive LookupFault
  | unknown
  | ambiguous
  deriving DecidableEq, Repr

/-- What a failed lookup of a name means for the query. -/
def LookupFault.cause (name : ColumnName) : LookupFault → Cause
  | unknown => .unknownColumn name.display
  | ambiguous => .ambiguousColumn name.display

/-- The queries around token `i`, innermost first and the statement last. -/
def Statement.contexts (s : Statement) (i : Nat) : List (Option Nat) :=
  (s.subqueries i).map some ++ [none]

namespace Scope

/-- The columns of one query that the name stands for. -/
def candidates (scope : Scope) (name : ColumnName) (context : Option Nat) : List FoundColumn :=
  (scope.entries.filter (·.context == context)).filterMap (·.column? name)

/-- Looks in one query after another. The first that knows the name decides. -/
def lookupIn (scope : Scope) (name : ColumnName) :
    List (Option Nat) → Except LookupFault FoundColumn
  | [] => .error .unknown
  | context :: outer =>
    match scope.candidates name context with
    | [] => scope.lookupIn name outer
    | [found] => .ok found
    | _ => .error .ambiguous

/-- The column that a name at token `i` stands for. -/
def lookup (scope : Scope) (s : Statement) (i : Nat) (name : ColumnName) :
    Except LookupFault FoundColumn :=
  scope.lookupIn name (s.contexts i)

/-- The entries at statement level. -/
def statementEntries (scope : Scope) : List ScopeEntry :=
  scope.entries.filter (·.context == none)

/-- Brings the relation of a reference into scope. -/
def enter (schema : Schema) (s : Statement) (scope : Scope) (reference : TableReference)
    (name : Name) (i : Nat) (nullable : Bool) : Except Finding (Relation × Scope) :=
  match schema.relation? name.text name.exact with
  | none => .error ⟨.unknownRelation name.text, .token i⟩
  | some relation =>
    let entry : ScopeEntry :=
      { relation, aliasName := reference.aliasName, nullable
        context := s.queryContext reference.start }
    .ok (relation, { scope with entries := scope.entries ++ [entry] })

/-- The columns that the items of a column list name. An item that is no plain name is left out. -/
def listedColumns (s : Statement) (relation : Relation) (items : List (Nat × Nat)) :
    Except Finding (List Column) :=
  (items.filter fun (lo, hi) => hi == lo + 1 && s.isWord lo).mapM fun (lo, _) =>
    match (s.name? lo).bind fun name => relation.column? name.text name.exact with
    | some column => .ok column
    | none =>
      let name := ((s.name? lo).map Name.text).getD ""
      .error ⟨.unknownColumn (relation.name ++ "." ++ name), .token lo⟩

/-- The scope after one step. -/
def step (schema : Schema) (s : Statement) (scope : Scope) : ScopeStep → Except Finding Scope
  | .table reference nullable =>
    match reference.relation with
    | none => .ok scope
    | some (name, i) => (scope.enter schema s reference name i nullable).map Prod.snd
  | .absent context =>
    .ok { scope with entries := scope.entries.map fun entry =>
            if entry.context == context then { entry with nullable := true } else entry }
  | .insertion reference source =>
    match reference.relation with
    | none => .ok scope
    | some (name, i) => do
      let (relation, scope) ← scope.enter schema s reference name i false
      let columns ← match source.columns with
        | some items => listedColumns s relation items
        | none => .ok relation.columns
      return { scope with insert := some ⟨columns, source.rows⟩ }

/-- The scope of a statement. Its first unknown relation or column is a fault. -/
def ofStatement (schema : Schema) (s : Statement) : Except Finding Scope :=
  s.scopeSteps.foldlM (step schema s) {}

end Scope

end AnnotatedSql
