import AnnotatedSql.Text.Category

/-!
# Texts as they are shown

Messages quote a text so that everything in it can be seen. A terminal shows it so that nothing in it
moves the text around it.
-/

namespace AnnotatedSql

/-! ## Escaped texts

In quotes, with quotes, backslashes and everything that cannot be seen escaped. -/

private def hexDigits (n : Nat) : List Char := Nat.toDigits 16 n

/-- A character inside an escaped text. -/
def escapedChar (c : Char) : List Char :=
  if c == '\x00' then ['\\', '0']
  else if c == '\t' then ['\\', 't']
  else if c == '\r' then ['\\', 'r']
  else if c == '\n' then ['\\', 'n']
  else if c == '\\' || c == '"' then ['\\', c]
  else if 0x20 ≤ c.toNat && c.toNat < 0x7F then [c]
  else if isInvisible c || isExtending c || isUnassigned c then
    ['\\', 'u', '\x7b'] ++ hexDigits c.toNat ++ ['\x7d']
  else [c]

/-- The text in quotes. -/
def escapedText (text : String) : String :=
  "\"" ++ String.ofList (text.toList.flatMap escapedChar) ++ "\""

/-! ## Visible texts

Control characters have pictures of their own, a tab is four blanks, joiners are left out, and
characters that turn the direction of writing are replaced. -/

/-- Whether the character changes the direction of the text after it. -/
def turnsDirection (c : Char) : Bool :=
  (0x202A ≤ c.toNat && c.toNat ≤ 0x202E) || (0x2066 ≤ c.toNat && c.toNat ≤ 0x2069)

/-- What is shown for a character. A line feed stays. -/
def visibleChar (c : Char) : List Char :=
  if c == '\n' then ['\n']
  else if c == '\t' then [' ', ' ', ' ', ' ']
  else if c.toNat < 0x20 then [Char.ofNat (0x2400 + c.toNat)]
  else if c == '\x7f' then [Char.ofNat 0x2421]
  else if c == Char.ofNat 0x200D then []
  else if turnsDirection c then [Char.ofNat 0xFFFD]
  else [c]

/-- What is shown for a text. -/
def visibleText (text : List Char) : List Char := text.flatMap visibleChar

end AnnotatedSql
