import AnnotatedSql.Json.Fault

/-!
# Reading JSON

A reader takes a value of one shape off the front of a text, and stops at the first fault in
reading order. Faults of shape are placed where the reader stands when it has left the value they
concern; all others are placed where they are met.
-/

namespace AnnotatedSql.Json

/-- The rest of a text and the number of bytes before it. -/
structure Cursor where
  rest : List Char
  index : Nat
  deriving DecidableEq, Repr

/-- Reads a value or stops at a problem; either way it ends somewhere in the text. -/
abbrev Reader (α : Type) := ExceptT Problem (StateM Cursor) α

namespace Reader

/-- Stops with a fault whose place is not known yet. -/
def failLater {α : Type} (fault : Fault) : Reader α := throw ⟨fault, none⟩

/-- Stops at the place reached. -/
def failHere {α : Type} (fault : Fault) : Reader α := do
  throw ⟨fault, some (← get).index⟩

/-- Stops at the first byte of the next character, or at the end of the text. -/
def failAhead {α : Type} (fault : Fault) : Reader α := do
  let cursor ← get
  throw ⟨fault, some (if cursor.rest.isEmpty then cursor.index else cursor.index + 1)⟩

/-- The next character, left in place. -/
def peek? : Reader (Option Char) := do
  return (← get).rest.head?

/-- Takes the next character off. -/
def next? : Reader (Option Char) := do
  match ← get with
  | ⟨[], _⟩ => return none
  | ⟨c :: rest, index⟩ =>
    set (⟨rest, index + c.utf8Size⟩ : Cursor)
    return some c

/-- Takes the next character off without looking at it. -/
def skip : Reader Unit := do
  let _ ← next?

/-- Takes off the characters that satisfy a test, and returns them. -/
def takeWhile (test : Char → Bool) : Reader (List Char) := do
  let cursor ← get
  let taken := cursor.rest.takeWhile test
  set (⟨cursor.rest.drop taken.length, cursor.index + byteLength taken⟩ : Cursor)
  return taken

private def isJsonBlank (c : Char) : Bool := c == ' ' || c == '\n' || c == '\t' || c == '\r'

/-- The next character after blanks, left in place. -/
def peekToken? : Reader (Option Char) := do
  let _ ← takeWhile isJsonBlank
  peek?

/-- The length of what is left, as fuel for loops that take off a character at each turn. -/
def fuel : Reader Nat := do
  return (← get).rest.length + 1

/-- Takes off exactly the given characters. -/
def expectWord : List Char → Reader Unit
  | [] => return
  | c :: word => do
    match ← peek? with
    | none => failHere .eofValue
    | some found =>
      if found == c then skip; expectWord word
      else failAhead .expectedIdent

/-! ## Texts -/

private def hexValue? (c : Char) : Option Nat :=
  if c.isDigit then some (c.toNat - '0'.toNat)
  else if 'a' ≤ c && c ≤ 'f' then some (c.toNat - 'a'.toNat + 10)
  else if 'A' ≤ c && c ≤ 'F' then some (c.toNat - 'A'.toNat + 10)
  else none

/-- Takes off four hexadecimal digits. -/
def hexEscape : Reader Nat := do
  let cursor ← get
  if byteLength cursor.rest < 4 then
    set (⟨[], cursor.index + byteLength cursor.rest⟩ : Cursor)
    failHere .eofString
  else
    match (cursor.rest.take 4).mapM hexValue? with
    | some digits =>
      set (⟨cursor.rest.drop 4, cursor.index + 4⟩ : Cursor)
      return digits.foldl (fun value digit => value * 16 + digit) 0
    | none => throw ⟨.invalidEscape, some (cursor.index + 4)⟩

/-- The second half of a surrogate pair whose first half is `high`. -/
def surrogatePair (high : Nat) : Reader Char := do
  for c in ['\\', 'u'] do
    match ← peek? with
    | none => failHere .eofString
    | some found => if found == c then skip else failAhead .unexpectedEndOfHexEscape
  let low ← hexEscape
  if low < 0xDC00 || 0xDFFF < low then failHere .loneSurrogate
  else return Char.ofNat ((high - 0xD800) * 0x400 + (low - 0xDC00) + 0x10000)

/-- The character that a hexadecimal escape stands for. Where only the extent of a text matters, it
is not checked that surrogates come in pairs. -/
def unicodeEscape (checked : Bool) : Reader Char := do
  let value ← hexEscape
  if !checked then return Char.ofNat value
  else if 0xDC00 ≤ value && value ≤ 0xDFFF then failHere .loneSurrogate
  else if value < 0xD800 || 0xDBFF < value then return Char.ofNat value
  else surrogatePair value

/-- The character that an escape stands for, after its backslash. -/
def escape (checked : Bool) : Reader Char := do
  match ← peek? with
  | none => failHere .eofString
  | some 'u' => skip; unicodeEscape checked
  | some 'b' => skip; return '\x08'
  | some 'f' => skip; return '\x0c'
  | some 'n' => skip; return '\n'
  | some 'r' => skip; return '\r'
  | some 't' => skip; return '\t'
  | some c =>
    if c == '"' || c == '\\' || c == '/' then skip; return c
    else failAhead .invalidEscape

/-- The text up to the closing quote. -/
def textWithin (checked : Bool) : Nat → List Char → Reader String
  | 0, _ => failHere .eofString
  | fuel + 1, read => do
    match ← next? with
    | none => failHere .eofString
    | some '"' => return String.ofList read.reverse
    | some '\\' => textWithin checked fuel ((← escape checked) :: read)
    | some c =>
      if c.toNat < 0x20 then failHere .controlCharacter else textWithin checked fuel (c :: read)

/-- A text after its opening quote. -/
def text (checked : Bool) : Reader String := do
  textWithin checked (← fuel) []

/-! ## Lists and objects -/

/-- Whether another item follows in a list; takes off the comma before it. -/
def hasItem (first : Bool) : Reader Bool := do
  match ← peekToken? with
  | none => failAhead .eofList
  | some ']' => return false
  | some c =>
    if first then return true
    else if c == ',' then
      skip
      match ← peekToken? with
      | none => failAhead .eofValue
      | some ']' => failAhead .trailingComma
      | some _ => return true
    else failAhead .expectedListCommaOrEnd

/-- Whether another member follows in an object; takes off the comma before it. -/
def hasMember (first : Bool) : Reader Bool := do
  match ← peekToken? with
  | none => failAhead .eofObject
  | some '}' => return false
  | some c =>
    if first then
      if c == '"' then return true else failAhead .keyNotString
    else if c == ',' then
      skip
      match ← peekToken? with
      | none => failAhead .eofValue
      | some '"' => return true
      | some '}' => failAhead .trailingComma
      | some _ => failAhead .keyNotString
    else failAhead .expectedObjectCommaOrEnd

/-- The key of a member that is known to follow. -/
def key : Reader String := do
  skip
  text true

/-- Takes off the colon after a key. -/
def colon : Reader Unit := do
  match ← peekToken? with
  | none => failAhead .eofObject
  | some ':' => skip
  | some _ => failAhead .expectedColon

/-- Leaves a list. -/
def endList : Reader Unit := do
  match ← peekToken? with
  | none => failAhead .eofList
  | some ']' => skip
  | some ',' =>
    skip
    match ← peekToken? with
    | some ']' => failAhead .trailingComma
    | _ => failAhead .trailingCharacters
  | some _ => failAhead .trailingCharacters

/-- Leaves an object. -/
def endObject : Reader Unit := do
  match ← peekToken? with
  | none => failAhead .eofObject
  | some '}' => skip
  | some ',' => failAhead .trailingComma
  | some _ => failAhead .trailingCharacters

/-- Reads what a list or object holds and leaves it. A fault of what it holds is the one that
counts, and is placed after leaving if it has no place yet. -/
def leaving {α : Type} (close : Reader Unit) (body : Reader α) : Reader α := fun cursor =>
  match body cursor with
  | (.ok value, inside) =>
    match close inside with
    | (.ok (), outside) => (.ok value, outside)
    | (.error problem, outside) => (.error (problem.placedAt outside.index), outside)
  | (.error problem, inside) =>
    let outside := (close inside).2
    (.error (problem.placedAt outside.index), outside)

/-- The items left in a list. -/
def itemsWithin {α : Type} (item : Reader α) : Nat → Bool → Reader (List α)
  | 0, _ => return []
  | fuel + 1, first => do
    if ← hasItem first then
      let value ← item
      return value :: (← itemsWithin item fuel false)
    else return []

/-- Folds over the members left in an object. `step` reads the value after the colon. -/
def membersWithin {σ : Type} (step : σ → String → Reader σ) : Nat → Bool → σ → Reader σ
  | 0, _, state => return state
  | fuel + 1, first, state => do
    if ← hasMember first then
      let name ← key
      membersWithin step fuel false (← step state name)
    else return state

end Reader

end AnnotatedSql.Json
