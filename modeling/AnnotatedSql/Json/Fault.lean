import AnnotatedSql.Text.Line

/-!
# Faults in JSON texts

Why a JSON text cannot be read as what it should be. A text may break off, break the grammar, or be
sound JSON of the wrong shape.
-/

namespace AnnotatedSql.Json

/-- Why a text is not what it should be. -/
inductive Fault
  | eofList | eofObject | eofString | eofValue
  | expectedColon | expectedListCommaOrEnd | expectedObjectCommaOrEnd
  | expectedIdent | expectedValue
  | invalidEscape | invalidNumber | numberOutOfRange
  | controlCharacter | keyNotString | loneSurrogate
  | trailingComma | trailingCharacters | unexpectedEndOfHexEscape
  /-- A value of one kind where another was expected. -/
  | invalidType (found expected : String)
  /-- An array with too few items. -/
  | invalidLength (length : Nat) (expected : String)
  | missingField (name : String)
  | duplicateField (name : String)
  | unknownField (name : String) (known : List String)
  deriving DecidableEq, Repr

/-- What a fault says about the text. -/
inductive Category
  /-- The text breaks off. -/
  | eof
  /-- The text is not JSON. -/
  | syntactic
  /-- The text is JSON of the wrong shape. -/
  | data
  deriving DecidableEq, Repr

namespace Fault

/-- What the fault says about the text. -/
def category : Fault → Category
  | eofList | eofObject | eofString | eofValue => .eof
  | invalidType _ _ | invalidLength _ _ | missingField _ | duplicateField _ | unknownField _ _ =>
    .data
  | _ => .syntactic

private def ticked (name : String) : String := "`" ++ name ++ "`"

/-- The fault in words, without its place. -/
def message : Fault → String
  | eofList => "EOF while parsing a list"
  | eofObject => "EOF while parsing an object"
  | eofString => "EOF while parsing a string"
  | eofValue => "EOF while parsing a value"
  | expectedColon => "expected `:`"
  | expectedListCommaOrEnd => "expected `,` or `]`"
  | expectedObjectCommaOrEnd => "expected `,` or `\x7d`"
  | expectedIdent => "expected ident"
  | expectedValue => "expected value"
  | invalidEscape => "invalid escape"
  | invalidNumber => "invalid number"
  | numberOutOfRange => "number out of range"
  | controlCharacter => "control character (\\u0000-\\u001F) found while parsing a string"
  | keyNotString => "key must be a string"
  | loneSurrogate => "lone leading surrogate in hex escape"
  | trailingComma => "trailing comma"
  | trailingCharacters => "trailing characters"
  | unexpectedEndOfHexEscape => "unexpected end of hex escape"
  | invalidType found expected => "invalid type: " ++ found ++ ", expected " ++ expected
  | invalidLength length expected =>
    "invalid length " ++ toString length ++ ", expected " ++ expected
  | missingField name => "missing field " ++ ticked name
  | duplicateField name => "duplicate field " ++ ticked name
  | unknownField name known =>
    "unknown field " ++ ticked name ++ ", expected one of " ++
      String.intercalate ", " (known.map ticked)

end Fault

/-- A fault at its place. -/
structure Problem where
  fault : Fault
  /-- The number of bytes before the place, where it is known. -/
  place : Option Nat
  deriving DecidableEq, Repr

namespace Problem

/-- The problem at the given place unless it has one. -/
def placedAt (problem : Problem) (place : Nat) : Problem :=
  { problem with place := problem.place <|> some place }

/-- The line of the place, from one, and the number of bytes before it on that line. -/
def lineColumn (text : List Char) (place : Nat) : Nat × Nat :=
  let before := takeBytes place text
  let line := (before.reverse.takeWhile (· != '\n')).reverse
  let lineStart := byteLength (before.take (before.length - line.length))
  (before.count '\n' + 1, place - lineStart)

/-- The fault with its line and column in the text. -/
def message (problem : Problem) (text : List Char) : String :=
  match problem.place with
  | none => problem.fault.message
  | some place =>
    let (line, column) := lineColumn text place
    problem.fault.message ++ " at line " ++ toString line ++ " column " ++ toString column

end Problem

end AnnotatedSql.Json
