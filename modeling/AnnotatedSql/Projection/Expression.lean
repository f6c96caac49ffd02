import AnnotatedSql.Parameter.Typing

/-!
# Expressions

What can be told of an expression without parsing it in full: casts, literals, placeholders,
columns, counts, parentheses around any of these, and fields of composites. Any other expression
has no type.
-/

namespace AnnotatedSql

/-- What is known of an expression. -/
structure Expression where
  /-- The name of a column that holds it. -/
  name : String
  type : DataType
  nullable : Bool
  deriving DecidableEq, Repr

/-- Why nothing is known of an expression. -/
inductive ExpressionFault
  /-- It is of no known form; it may still be read in another way. -/
  | untyped
  | failed (finding : Finding)
  deriving DecidableEq, Repr

/-- The name of a column whose expression has none. -/
def anonymousColumn : String := "?column?"

/-- The name of a column that is a cast of an expression of no known form: its type. -/
def castColumn : DataType → String
  | .array _ => anonymousColumn
  | type => type.display

/-- What expressions refer to. -/
structure Surroundings where
  schema : Schema
  statement : Statement
  scope : Scope
  /-- The typed parameter table. -/
  parameters : List Parameter

namespace Surroundings

/-- A column named at token `i`. The tokens of the name run to before `next`. -/
def column (env : Surroundings) (i : Nat) (name : ColumnName) (next : Nat) :
    Except ExpressionFault Expression :=
  match env.scope.lookup env.statement i name with
  | .ok found => .ok ⟨found.column.name, found.column.type, found.nullable⟩
  | .error fault => .error (.failed ⟨fault.cause name, .tokens i next⟩)

private def literal (kind : Scalar) : Except ExpressionFault Expression :=
  .ok ⟨anonymousColumn, .scalar kind, false⟩

/-- A placeholder, once its parameter has a type. -/
def placeholder (env : Surroundings) (i : Nat) : Except ExpressionFault Expression :=
  let typed := (env.statement.paramKey? i).bind fun key =>
    env.parameters.find? fun p => p.key == key && p.type.isResolved
  match typed with
  | some parameter => .ok ⟨parameter.name, parameter.type, false⟩
  | none => .error .untyped

/-- The expression that is token `i` alone. -/
def token (env : Surroundings) (i : Nat) : Except ExpressionFault Expression :=
  let s := env.statement
  match s.kind? i with
  | some .number => literal (if (s.text i).toList.contains '.' then .numeric else .int4)
  | some .stringLiteral => literal .text
  | some .positionalParam | some .namedParam => env.placeholder i
  | some .ident | some .quotedIdent =>
    if s.isOneOf i ["true", "false"] then literal .bool
    else
      match s.columnPath? i with
      | some (name, next) => env.column i name next
      | none => .error .untyped
  | _ => .error .untyped

end Surroundings

namespace Statement

/-- The last `::` between tokens `lo` and `hi` at the level of `lo`. -/
def lastCast? (s : Statement) (lo hi : Nat) : Option Nat :=
  (List.range' (lo + 1) (hi - (lo + 1))).reverse.find? fun i =>
    s.is i .doubleColon && s.enclosing i == s.enclosing lo

/-- The last cast of the tokens `lo` to before `hi` if it is the last thing there: where its
operand ends, and its type. -/
def trailingCast? (s : Statement) (lo hi : Nat) : Option (Nat × TypeName) := do
  let cast ← s.lastCast? lo hi
  let type ← s.typeName? (cast + 1)
  if type.hi == hi then some (cast, type) else none

/-- Whether the tokens are a call of `count`. -/
def isCount (s : Statement) (lo hi : Nat) : Bool :=
  s.isKeyword lo "count" && s.is (lo + 1) .parenOpen && s.partner (lo + 1) == some (hi - 1)

/-- The tokens of the names in a path such as `.a.b` from token `i` to before `hi`, over at most
`fuel` names. -/
def fieldPath? (s : Statement) (hi : Nat) : Nat → Nat → Option (List Nat)
  | 0, i => if i == hi then some [] else none
  | fuel + 1, i =>
    if i < hi then
      if s.is i .dot && s.isWord (i + 1) then
        (s.fieldPath? hi fuel (i + 2)).map fun names => (i + 1) :: names
      else none
    else if i == hi then some [] else none

/-- The parentheses that tokens `lo` to before `hi` begin with: where they close. -/
def leadingGroup? (s : Statement) (lo hi : Nat) : Option Nat :=
  if s.is lo .parenOpen then (s.partner lo).filter (· < hi) else none

end Statement

namespace Surroundings

/-- The field that token `i` names, of a composite expression. -/
def field (env : Surroundings) (whole : Expression) (i : Nat) :
    Except ExpressionFault Expression :=
  let name := ((env.statement.name? i).map Name.text).getD ""
  match whole.type.field? name with
  | some field => .ok ⟨field.name, field.type, true⟩
  | none => .error (.failed ⟨.unknownField whole.type.display name, .token i⟩)

/-- An expression under a cast. The type is that of the cast, the name that of the operand. -/
def cast (env : Surroundings) (type : TypeName) (operand : Except ExpressionFault Expression) :
    Except ExpressionFault Expression :=
  match env.schema.typeNamed? type.text with
  | none => .error (.failed ⟨.unknownType type.text, type.place⟩)
  | some target =>
    match operand with
    | .ok expression => .ok { expression with type := target }
    | .error .untyped => .ok ⟨castColumn target, target, true⟩
    | .error fault => .error fault

/-- Reads the tokens from `lo` to before `hi` as an expression, with at most `fuel` of them. -/
def expressionWithin (env : Surroundings) :
    Nat → Nat → Nat → Except ExpressionFault Expression
  | 0, _, _ => .error .untyped
  | fuel + 1, lo, hi =>
    let s := env.statement
    if hi ≤ lo then .error .untyped
    else
      match s.trailingCast? lo hi with
      | some (cast, type) => env.cast type (env.expressionWithin fuel lo cast)
      | none =>
        if hi == lo + 1 then env.token lo
        else
          match (s.columnPath? lo).filter fun (_, next) => next == hi with
          | some (name, next) => env.column lo name next
          | none =>
            if s.isCount lo hi then .ok ⟨"count", .scalar .int8, false⟩
            else
              match s.leadingGroup? lo hi with
              | none => .error .untyped
              | some closing =>
                match s.fieldPath? hi s.size (closing + 1) with
                | none => .error .untyped
                | some names => do
                  let whole ← env.expressionWithin fuel (lo + 1) closing
                  names.foldlM env.field whole

/-- The expression in the tokens from `lo` to before `hi`. Each part of it has fewer tokens, so
their number is fuel enough. -/
def expression (env : Surroundings) (lo hi : Nat) : Except ExpressionFault Expression :=
  env.expressionWithin (hi - lo) lo hi

end Surroundings

end AnnotatedSql
