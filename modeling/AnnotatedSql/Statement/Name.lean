import AnnotatedSql.Statement.Basic

/-!
# Names in statements

A name is an identifier as written. An unquoted one stands for any spelling that differs in case, a
quoted one only for itself. Type names are read with their several-word forms, their modifiers in
parentheses and their array suffixes.
-/

namespace AnnotatedSql

/-- An identifier as written, without quotes. -/
structure Name where
  text : String
  /-- Written in quotes. -/
  exact : Bool
  deriving DecidableEq, Repr, Inhabited

/-- Whether the name stands for `other`. -/
def Name.matches (name : Name) (other : String) : Bool :=
  if name.exact then name.text == other else equalFold name.text other

/-- Text in which a quote is written twice, with each quote once. -/
def undouble : List Char → List Char
  | '"' :: '"' :: rest => '"' :: undouble rest
  | c :: rest => c :: undouble rest
  | [] => []

/-- A type name as a cast writes it, with the range of its tokens. -/
structure TypeName where
  /-- Small letters and one spelling for each several-word name; quoted names keep their quotes. -/
  text : String
  lo : Nat
  hi : Nat
  deriving DecidableEq, Repr

namespace Statement

/-- The name at token `i`. -/
def name? (s : Statement) (i : Nat) : Option Name :=
  match s.kind? i with
  | some .ident => some ⟨s.text i, false⟩
  | some .quotedIdent =>
    some ⟨String.ofList (undouble ((s.text i).toList.drop 1).dropLast), true⟩
  | _ => none

/-- Follows a dotted name whose part before `next` is `name`, over at most `fuel` more parts. -/
def followDots (s : Statement) : Nat → Name → Nat → Name × Nat
  | 0, name, next => (name, next)
  | fuel + 1, name, next =>
    if s.is next .dot then
      match s.name? (next + 1) with
      | some part => s.followDots fuel part (next + 2)
      | none => (name, next)
    else (name, next)

/-- The last part of the possibly qualified name at `i`, and the index after it. -/
def objectName (s : Statement) (i : Nat) : Option (Name × Nat) :=
  (s.name? i).map fun name => s.followDots s.size name (i + 1)

/-- The spelling of a part of a type name. -/
def typeWord? (s : Statement) (i : Nat) : Option String :=
  match s.kind? i with
  | some .ident => some (foldCase (s.text i))
  | some .quotedIdent => some (s.text i)
  | _ => none

/-- Follows a qualified type name over at most `fuel` more parts; only the last part counts. -/
def followTypeDots (s : Statement) : Nat → String → Nat → String × Nat
  | 0, word, next => (word, next)
  | fuel + 1, word, next =>
    if s.is next .dot then
      match s.typeWord? (next + 1) with
      | some part => s.followTypeDots fuel part (next + 2)
      | none => (word, next)
    else (word, next)

/-- Whether the three words at `i` are `first TIME ZONE`. -/
def isTimeZone (s : Statement) (i : Nat) (first : String) : Bool :=
  s.isKeyword i first && s.isKeyword (i + 1) "time" && s.isKeyword (i + 2) "zone"

/-- Completes the type names of several words; `next` is the index after the first. -/
def completeType (s : Statement) (word : String) (next : Nat) : String × Nat :=
  if word == "double" && s.isKeyword next "precision" then ("double precision", next + 1)
  else if word == "character" && s.isKeyword next "varying" then ("varchar", next + 1)
  else if word == "timestamp" && s.isTimeZone next "with" then ("timestamptz", next + 3)
  else if word == "time" && s.isTimeZone next "with" then (word, next + 3)
  else if (word == "timestamp" || word == "time") && s.isTimeZone next "without" then
    (word, next + 3)
  else (word, next)

/-- The index after the parentheses that open at `next`, or `next` if none do. -/
def skipGroup (s : Statement) (next : Nat) : Nat :=
  if s.is next .parenOpen then
    match s.partner next with
    | some closing => closing + 1
    | none => next
  else next

/-- The number of array suffixes at `next`, at most `fuel`, and the index after them. -/
def arraySuffixes (s : Statement) : Nat → Nat → Nat × Nat
  | 0, next => (0, next)
  | fuel + 1, next =>
    if s.is next .bracketOpen then
      let closing := if s.is (next + 1) .number then next + 2 else next + 1
      if s.is closing .bracketClose then
        let (count, after) := s.arraySuffixes fuel (closing + 1)
        (count + 1, after)
      else (0, next)
    else (0, next)

/-- The type name at `i`. The index after it is its `hi`. -/
def typeName? (s : Statement) (i : Nat) : Option TypeName := do
  let first ← s.typeWord? i
  let (word, next) := s.followTypeDots s.size first (i + 1)
  let (word, next) := s.completeType word next
  let (depth, next) := s.arraySuffixes s.size (s.skipGroup next)
  some ⟨word ++ String.join (List.replicate depth "[]"), i, next⟩

end Statement

end AnnotatedSql
