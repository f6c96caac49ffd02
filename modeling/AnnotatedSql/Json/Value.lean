/-!
# JSON values

The values that catalogs are written as, and their two written forms: on one line without blanks,
and on many lines indented by two spaces. Members of objects keep their order.
-/

namespace AnnotatedSql

/-- A member of an object. -/
structure Member (α : Type) where
  key : String
  value : α
  deriving DecidableEq, Repr

/-- A value. Numbers are natural. -/
inductive Json
  | null
  | bool (value : Bool)
  | number (value : Nat)
  | string (text : String)
  | array (items : List Json)
  | object (members : List (Member Json))
  deriving Repr, Inhabited

namespace Json

/-- A character inside a quoted text. Quotes, backslashes and control characters are escaped. -/
def escapeChar (c : Char) : List Char :=
  if c == '"' then ['\\', '"']
  else if c == '\\' then ['\\', '\\']
  else if c == '\n' then ['\\', 'n']
  else if c == '\r' then ['\\', 'r']
  else if c == '\t' then ['\\', 't']
  else if c == '\x08' then ['\\', 'b']
  else if c == '\x0c' then ['\\', 'f']
  else if c.toNat < 0x20 then
    ['\\', 'u', '0', '0', Nat.digitChar (c.toNat / 16), Nat.digitChar (c.toNat % 16)]
  else [c]

/-- A text in quotes. -/
def quote (text : String) : String :=
  "\"" ++ String.ofList (text.toList.flatMap escapeChar) ++ "\""

mutual

/-- The value on one line. -/
def compact : Json → String
  | null => "null"
  | bool true => "true"
  | bool false => "false"
  | number value => toString value
  | string text => quote text
  | array items => "[" ++ compactItems items ++ "]"
  | object members => "\x7b" ++ compactMembers members ++ "\x7d"

/-- Items with commas between them. -/
def compactItems : List Json → String
  | [] => ""
  | [item] => item.compact
  | item :: items => item.compact ++ "," ++ compactItems items

/-- Members with commas between them. -/
def compactMembers : List (Member Json) → String
  | [] => ""
  | [⟨key, value⟩] => quote key ++ ":" ++ value.compact
  | ⟨key, value⟩ :: members => quote key ++ ":" ++ value.compact ++ "," ++ compactMembers members

end

/-- A new line with the given indentation. -/
def newLine (indent : Nat) : String := "\n" ++ String.ofList (List.replicate indent ' ')

mutual

/-- The value on many lines, of which the first stands at the given indentation. -/
def prettyAt (indent : Nat) : Json → String
  | null => "null"
  | bool true => "true"
  | bool false => "false"
  | number value => toString value
  | string text => quote text
  | array [] => "[]"
  | array (item :: items) =>
    "[" ++ newLine (indent + 2) ++ prettyAt (indent + 2) item ++ prettyItems (indent + 2) items ++
      newLine indent ++ "]"
  | object [] => "\x7b\x7d"
  | object (⟨key, value⟩ :: members) =>
    "\x7b" ++ newLine (indent + 2) ++ quote key ++ ": " ++ prettyAt (indent + 2) value ++
      prettyMembers (indent + 2) members ++ newLine indent ++ "\x7d"

/-- The items after the first, each after a comma and on a new line. -/
def prettyItems (indent : Nat) : List Json → String
  | [] => ""
  | item :: items => "," ++ newLine indent ++ prettyAt indent item ++ prettyItems indent items

/-- The members after the first, each after a comma and on a new line. -/
def prettyMembers (indent : Nat) : List (Member Json) → String
  | [] => ""
  | ⟨key, value⟩ :: members =>
    "," ++ newLine indent ++ quote key ++ ": " ++ prettyAt indent value ++
      prettyMembers indent members

end

/-- The value on many lines. -/
def pretty (json : Json) : String := json.prettyAt 0

/-- An optional value, null if absent. -/
def ofOption {α : Type} (write : α → Json) : Option α → Json
  | none => null
  | some value => write value

end Json

end AnnotatedSql
