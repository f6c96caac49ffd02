import AnnotatedSql.Parameter.Binding
import AnnotatedSql.Scope.Basic

/-!
# Typing of parameters

A parameter that is cast has the type of its cast. Any other takes its type from what its
placeholders stand beside: a comparison with a column, the bounds of a range, a list of values, the
place of an inserted value, or a number of rows. All its uses have to agree.
-/

namespace AnnotatedSql

namespace Statement

/-- The operators that compare values of one type. -/
def isComparison (s : Statement) (i : Nat) : Bool :=
  (s.kind? i).any TokenKind.isComparison || s.isOneOf i ["like", "ilike"]

/-- The column reference that ends at token `last`, and the token it starts at. A reference that is
part of a longer path or of a cast type is none. -/
def columnEndingAt? (s : Statement) (last : Nat) : Option (ColumnName × Nat) := do
  let column ← s.name? last
  if s.isClauseKeyword last then none
  let (name, start) ←
    if 2 ≤ last && s.is (last - 1) .dot then
      (s.name? (last - 2)).map fun qualifier => (⟨some qualifier, column⟩, last - 2)
    else some (⟨none, column⟩, last)
  if 0 < start && (s.is (start - 1) .dot || s.is (start - 1) .doubleColon) then none
  else some (name, start)

/-- The column path that starts at token `first`, and the index after it. -/
def columnPath? (s : Statement) (first : Nat) : Option (ColumnName × Nat) :=
  if s.isClauseKeyword first then none
  else
    match s.name? first with
    | none => none
    | some name =>
      if s.is (first + 1) .dot then
        (s.name? (first + 2)).map fun column => (⟨some name, column⟩, first + 3)
      else some (⟨none, name⟩, first + 1)

/-- The column reference that starts at token `first`, and the index after it. A call, a longer path
and a cast are none. -/
def columnAt? (s : Statement) (first : Nat) : Option (ColumnName × Nat) :=
  (s.columnPath? first).filter fun (_, next) =>
    !(s.is next .parenOpen || s.is next .dot || s.is next .doubleColon)

/-- The first and last token of the operand that a placeholder forms with its cast. -/
def operand (s : Statement) (i : Nat) : Nat × Nat :=
  let (lo, hi) := s.unwrapParens i i
  let cast := if s.is (hi + 1) .doubleColon then s.typeName? (hi + 2) else none
  match cast with
  | some type => (lo, type.hi - 1)
  | none =>
    if 2 ≤ i && s.is (i - 1) .parenOpen && s.isKeyword (i - 2) "cast" then
      match s.partner (i - 1) with
      | some closing => (i - 2, closing)
      | none => (i, i)
    else (i, i)

/-- The token before `i`, and before a `NOT` there. None if there is none. -/
def beforeNot? (s : Statement) (i : Nat) : Option Nat :=
  match i with
  | 0 => none
  | last + 1 =>
    if s.isKeyword last "not" then
      match last with
      | 0 => none
      | before + 1 => some before
    else some last

/-- The clause keyword at or before token `i`; the first token if there is none. -/
def clauseKeywordBefore (s : Statement) : Nat → Nat
  | 0 => 0
  | i + 1 => if s.isClauseKeyword (i + 1) then i + 1 else s.clauseKeywordBefore i

end Statement

/-- The type that a use of a parameter asks for, or why it cannot be told. -/
abbrev Expectation := Except Finding DataType

namespace Typing

/-- The type of the column named at token `i`. The name's tokens run from `lo` to before `hi`. -/
def columnType (s : Statement) (scope : Scope) (i : Nat) (name : ColumnName) (lo hi : Nat) :
    Expectation :=
  match scope.lookup s i name with
  | .ok found => .ok found.column.type
  | .error fault => .error ⟨fault.cause name, .tokens lo hi⟩

section

variable {s : Statement} {scope : Scope} {i lo hi : Nat} {name : ColumnName}

/-- A column has a type where it is found. -/
theorem columnType_eq_ok {type : DataType} : columnType s scope i name lo hi = .ok type ↔
    ∃ found, scope.lookup s i name = .ok found ∧ found.column.type = type := by
  unfold columnType
  cases scope.lookup s i name <;> simp

/-- What is wrong with it is what is wrong with its lookup. -/
theorem columnType_eq_error {finding : Finding} :
    columnType s scope i name lo hi = .error finding ↔
      ∃ fault, scope.lookup s i name = .error fault ∧ ⟨fault.cause name, .tokens lo hi⟩ = finding := by
  unfold columnType
  cases scope.lookup s i name <;> simp

end

/-- The type of the column reference that ends at token `last`. -/
def typeEndingAt (s : Statement) (scope : Scope) (last : Nat) : Option Expectation :=
  (s.columnEndingAt? last).map fun (name, start) =>
    columnType s scope last name start (last + 1)

/-- `LIMIT :x` and `OFFSET :x` -/
def rowCount (s : Statement) (lo : Nat) : Option Expectation :=
  if 0 < lo && s.isOneOf (lo - 1) ["limit", "offset"] then some (.ok (.scalar .int8)) else none

/-- `column op :x` -/
def comparedAfter (s : Statement) (scope : Scope) (lo : Nat) : Option Expectation :=
  if 2 ≤ lo && s.isComparison (lo - 1) then
    let last := if 0 < lo - 2 && s.isKeyword (lo - 2) "not" then lo - 3 else lo - 2
    typeEndingAt s scope last
  else none

/-- `:x op column` -/
def comparedBefore (s : Statement) (scope : Scope) (hi : Nat) : Option Expectation :=
  let op := if s.isKeyword (hi + 1) "not" then hi + 2 else hi + 1
  if s.isComparison op then
    (s.columnAt? (op + 1)).map fun (name, next) =>
      columnType s scope (op + 1) name (op + 1) next
  else none

/-- The column of the `BETWEEN` at token `i`. -/
def rangeColumn (s : Statement) (scope : Scope) (i : Nat) : Option Expectation :=
  (s.beforeNot? i).bind (typeEndingAt s scope)

/-- `column BETWEEN :x` -/
def lowerBound (s : Statement) (scope : Scope) (lo : Nat) : Option Expectation :=
  if 2 ≤ lo && s.isKeyword (lo - 1) "between" then rangeColumn s scope (lo - 1) else none

/-- `column BETWEEN … AND :x` -/
def upperBound (s : Statement) (scope : Scope) (lo : Nat) : Option Expectation :=
  if 3 ≤ lo && s.isKeyword (lo - 1) "and" then
    let keyword := s.clauseKeywordBefore (lo - 2)
    if s.isKeyword keyword "between" then rangeColumn s scope keyword else none
  else none

/-- `column IN (…, :x, …)` -/
def listMember (s : Statement) (scope : Scope) (lo hi : Nat) : Option Expectation :=
  let isItem := decide (0 < lo) && (s.is (lo - 1) .parenOpen || s.is (lo - 1) .comma) &&
    (s.is (hi + 1) .parenClose || s.is (hi + 1) .comma)
  match s.enclosing lo with
  | none => none
  | some opening =>
    if isItem && 0 < opening && s.isKeyword (opening - 1) "in" then
      (s.beforeNot? (opening - 1)).bind (typeEndingAt s scope)
    else none

/-- The place of the operand among the values of the row. -/
def valueIndex? (s : Statement) (lo hi : Nat) (row : Nat × Nat) : Option Nat :=
  if row.1 < lo && hi < row.2 then
    (s.splitCommas (row.1 + 1) row.2).findIdx? (· == (lo, hi + 1))
  else none

/-- `INSERT INTO … (…, column, …) VALUES (…, :x, …)` -/
def insertedValue (s : Statement) (scope : Scope) (lo hi : Nat) : Option Expectation := do
  let insert ← scope.insert
  let index ← insert.rows.findSome? (valueIndex? s lo hi)
  let column ← insert.columns[index]?
  return .ok column.type

/-- The type that the surroundings of the placeholder at token `i` ask for, if any. -/
def contextType (s : Statement) (scope : Scope) (i : Nat) : Option Expectation :=
  let (lo, hi) := s.operand i
  rowCount s lo <|> comparedAfter s scope lo <|> comparedBefore s scope hi <|>
    lowerBound s scope lo <|> upperBound s scope lo <|> listMember s scope lo hi <|>
    insertedValue s scope lo hi

/-- A use of a parameter that asks for a type. -/
structure Use where
  token : Nat
  key : ParamKey
  expectation : Expectation

/-- The uses of the parameters that are not cast, in order. -/
def uses (s : Statement) (scope : Scope) (parameters : List Parameter) : List Use :=
  let hinted (key : ParamKey) := parameters.any fun p => p.key == key && p.hint.isSome
  (s.placeholders.filter fun (_, key) => !hinted key).filterMap fun (i, key) =>
    (contextType s scope i).map (⟨i, key, ·⟩)

/-- The types that the uses of a key ask for, each with its token. -/
def askedTypes (uses : List Use) (key : ParamKey) : List (Nat × DataType) :=
  uses.filterMap fun use =>
    if use.key == key then use.expectation.toOption.map (use.token, ·) else none

/-- The type of a parameter whose uses ask for the given types. -/
def typeOf (schema : Schema) (parameter : Parameter) (asked : List (Nat × DataType)) :
    Expectation :=
  match parameter.hint with
  | some hint =>
    match schema.typeNamed? hint.text with
    | some type => .ok type
    | none => .error ⟨.unknownType hint.text, hint.place⟩
  | none =>
    match asked with
    | [] => .error ⟨.untypedParameter parameter.key, .token (parameter.occurrences.headD 0)⟩
    | (first, type) :: others =>
      match others.find? fun (_, other) => other != type with
      | none => .ok type
      | some (i, other) =>
        .error ⟨.ambiguousParameter parameter.key type.display other.display (.token first),
          .token i⟩

/-- A parameter with its type; one whose type cannot be told stays as it is. -/
def assign (parameter : Parameter) : Expectation → Parameter
  | .ok type => { parameter with type }
  | .error _ => parameter

/-- The finding in an expectation that fails. -/
def finding? : Expectation → Option Finding
  | .ok _ => none
  | .error finding => some finding

end Typing

/-- Types the parameters of a statement: the typed table, and first what is wrong with single uses,
then with parameters. -/
def typeParameters (schema : Schema) (s : Statement) (scope : Scope)
    (parameters : List Parameter) : List Parameter × List Finding :=
  let uses := Typing.uses s scope parameters
  let types := parameters.map fun p => (p, Typing.typeOf schema p (Typing.askedTypes uses p.key))
  (types.map fun (p, type) => Typing.assign p type,
    uses.filterMap (fun use => Typing.finding? use.expectation) ++
      types.filterMap fun (_, type) => Typing.finding? type)

end AnnotatedSql
