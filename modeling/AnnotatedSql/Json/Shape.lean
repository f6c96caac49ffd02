import AnnotatedSql.Json.Number
import AnnotatedSql.Text.Shown

/-!
# Values of known shape

Readers for texts, truth values, lists and objects. A value of another kind is a fault that says
what was found and what was expected.
-/

namespace AnnotatedSql.Json.Reader

/-- Stops at a value of the wrong kind. Scalars are read to say what they are; a list or object is
not entered. -/
def mismatch {α : Type} (expected : String) : Reader α := do
  let stop (found : String) : Reader α := failHere (.invalidType found expected)
  match ← peek? with
  | some 'n' => skip; expectWord "ull".toList; stop "null"
  | some 't' => skip; expectWord "rue".toList; stop "boolean `true`"
  | some 'f' => skip; expectWord "alse".toList; stop "boolean `false`"
  | some '-' => skip; stop (← number false).describe
  | some '"' => skip; stop ("string " ++ escapedText (← text true))
  | some '[' => stop "sequence"
  | some '{' => stop "map"
  | some c => if c.isDigit then stop (← number true).describe else failAhead .expectedValue
  | none => failAhead .expectedValue

/-- A text. -/
def string : Reader String := do
  match ← peekToken? with
  | none => failAhead .eofValue
  | some '"' => skip; text true
  | some _ => mismatch "a string"

/-- A truth value. -/
def boolean : Reader Bool := do
  match ← peekToken? with
  | none => failAhead .eofValue
  | some 't' => skip; expectWord "rue".toList; return true
  | some 'f' => skip; expectWord "alse".toList; return false
  | some _ => mismatch "a boolean"

/-- A list of values of one shape. -/
def list {α : Type} (item : Reader α) : Reader (List α) := do
  match ← peekToken? with
  | none => failAhead .eofValue
  | some '[' =>
    skip
    leaving endList (do itemsWithin item (← fuel) true)
  | some _ => mismatch "a sequence"

/-- Adds a pair to a list of pairs with distinct first parts. A pair that is there already keeps
its place and takes the new second part. -/
def insertKey {α : Type} (name : String) (value : α) : List (String × α) → List (String × α)
  | [] => [(name, value)]
  | (other, old) :: rest =>
    if other == name then (name, value) :: rest else (other, old) :: insertKey name value rest

/-- An object as a map from its keys. -/
def map {α : Type} (value : Reader α) : Reader (List (String × α)) := do
  match ← peekToken? with
  | none => failAhead .eofValue
  | some '{' =>
    skip
    leaving endObject do
      membersWithin (fun pairs name => do
        colon
        return insertKey name (← value) pairs) (← fuel) true []
  | some _ => mismatch "a map"

/-- An object with known members, or a list of their values in order. -/
def structured {α : Type} (expected : String) (members items : Reader α) : Reader α := do
  match ← peekToken? with
  | none => failAhead .eofValue
  | some '[' => skip; leaving endList items
  | some '{' => skip; leaving endObject members
  | some _ => mismatch expected

/-- Whether a list or an object is open. -/
inductive Bracket
  | list
  | object
  deriving DecidableEq, Repr

/-- Takes off the key and the colon of a member. -/
def skipKey : Reader Unit := do
  match ← peekToken? with
  | none => failAhead .eofObject
  | some '"' =>
    skip
    let _ ← text false
    colon
  | some _ => failAhead .keyNotString

/-- Leaves finished lists and objects until another value follows, and moves up to that value.
`opened` are those that are open, innermost first, and `after` says that a value ends here.
Returns those that are still open. -/
def nextValue : Nat → Bool → List Bracket → Reader (List Bracket)
  | 0, _, opened => return opened
  | _ + 1, _, [] => return []
  | fuel + 1, after, bracket :: outer => do
    let closing := match bracket with
      | .list => ']'
      | .object => '}'
    let found ← match ← peekToken? with
      | none => failAhead (match bracket with
          | .list => .eofList
          | .object => .eofObject)
      | some c => pure c
    if found == closing then
      skip
      nextValue fuel true outer
    else
      if after then
        if found == ',' then skip
        else failAhead (match bracket with
          | .list => .expectedListCommaOrEnd
          | .object => .expectedObjectCommaOrEnd)
      if bracket == .object then skipKey
      return bracket :: outer

/-- Takes off the values left within what is open. -/
def skipWithin : Nat → List Bracket → Reader Unit
  | 0, _ => return
  | fuel + 1, opened => do
    let (after, opened) ← match ← peekToken? with
      | none => failAhead .eofValue
      | some 'n' => skip; expectWord "ull".toList; pure (true, opened)
      | some 't' => skip; expectWord "rue".toList; pure (true, opened)
      | some 'f' => skip; expectWord "alse".toList; pure (true, opened)
      | some '-' => skip; skipNumber; pure (true, opened)
      | some '"' =>
        skip
        let _ ← text false
        pure (true, opened)
      | some '[' => skip; pure (false, .list :: opened)
      | some '{' => skip; pure (false, .object :: opened)
      | some c =>
        if c.isDigit then skipNumber
        else failAhead .expectedValue
        pure (true, opened)
    match ← nextValue (opened.length + 1) after opened with
    | [] => return
    | opened => skipWithin fuel opened

/-- Takes off a value of any kind. -/
def skipValue : Reader Unit := do
  skipWithin (← fuel) []

/-- Reads a whole text that is one value with blanks around it. -/
def run {α : Type} (reader : Reader α) (text : List Char) : Except Problem α :=
  let whole : Reader α := do
    let value ← reader
    match ← peekToken? with
    | none => return value
    | some _ => failAhead .trailingCharacters
  (whole ⟨text, 0⟩).1

end AnnotatedSql.Json.Reader
