import AnnotatedSql.Schema.Basic
import AnnotatedSql.Statement.Name

/-!
# Casts of placeholders

A placeholder may be cast where it stands: `:x::t`, `(:x)::t` or `CAST(:x AS t)`. The type of the
cast is a hint for the parameter's type.
-/

namespace AnnotatedSql

namespace Statement

/-- The type name that a `CAST` around the tokens `lo` to `hi` ends with. -/
def castTarget? (s : Statement) (lo hi : Nat) : Option TypeName :=
  if 2 ≤ lo && s.is (lo - 1) .parenOpen && s.isKeyword (lo - 2) "cast" &&
      s.isKeyword (hi + 1) "as" then
    (s.typeName? (hi + 2)).filter fun type => s.partner (lo - 1) == some type.hi
  else none

/-- The type that the placeholder at `i` is cast to directly. -/
def castHint? (s : Statement) (i : Nat) : Option TypeName :=
  let (lo, hi) := s.unwrapParens i i
  if s.is (hi + 1) .doubleColon then s.typeName? (hi + 2) else s.castTarget? lo hi

end Statement

/-- Small letters, and the canonical name of a base type. -/
def canonicalElement (name : List Char) : String :=
  match Scalar.ofSqlName? (String.ofList name) with
  | some kind => kind.sqlName
  | none => foldCase (String.ofList name)

/-- A type name from which at most `fuel` array suffixes are taken, in canonical spelling. -/
def canonicalWithin : Nat → List Char → String
  | 0, name => canonicalElement name
  | fuel + 1, name =>
    match withoutArraySuffix? name with
    | some element => canonicalWithin fuel element ++ "[]"
    | none => canonicalElement name

/-- A form that is the same for all spellings of one type, such as `int` and `int4`. -/
def canonicalType (name : String) : String := canonicalWithin name.length name.toList

end AnnotatedSql
