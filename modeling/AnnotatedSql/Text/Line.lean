import AnnotatedSql.Text.Span

/-!
# Blanks, lines and positions

Blanks are the characters with the Unicode property White_Space, and trimming takes them from the
ends of a text. A line runs up to and including its line feed; only the last line of a text may lack
one. A position within a text is a line number and a column, both counted from one, the column in
characters.
-/

namespace AnnotatedSql

/-! ## Blank space -/

/-- Whether a character has the property White_Space. -/
def isBlank (c : Char) : Bool :=
  let n := c.toNat
  (9 ≤ n && n ≤ 13) || n == 0x20 || n == 0x85 || n == 0xA0 || n == 0x1680 ||
    (0x2000 ≤ n && n ≤ 0x200A) || n == 0x2028 || n == 0x2029 || n == 0x202F || n == 0x205F ||
    n == 0x3000

/-- The text without the blanks it ends with. -/
def trimEnd (text : List Char) : List Char := (text.reverse.dropWhile isBlank).reverse

/-- The text without the blanks at either end. -/
def trim (text : List Char) : List Char := trimEnd (text.dropWhile isBlank)

/-- A string without the blanks at either end. -/
def trimmed (text : String) : String := String.ofList (trim text.toList)

/-! ## Lines -/

/-- The lines of a text, each with its line feed. -/
def lines : List Char → List (List Char)
  | [] => []
  | c :: text =>
    if c == '\n' then ['\n'] :: lines text
    else match lines text with
      | [] => [[c]]
      | line :: rest => (c :: line) :: rest

/-- A line without its line feed. -/
def withoutLineFeed (line : List Char) : List Char :=
  if line.getLast? == some '\n' then line.dropLast else line

/-- A line without its line feed, and without one carriage return before it. -/
def lineContent (line : List Char) : List Char :=
  let content := withoutLineFeed line
  if content.getLast? == some '\r' then content.dropLast else content

/-- A place in a text as people count it. -/
structure Position where
  line : Nat
  column : Nat
  deriving DecidableEq, Repr

namespace Position

/-- The position right after the given text. -/
def after (text : List Char) : Position :=
  ⟨text.count '\n' + 1, (text.reverse.takeWhile (· != '\n')).length + 1⟩

/-- The position of a byte offset. An offset past the end counts as the end. -/
def ofOffset (text : List Char) (offset : Nat) : Position := after (takeBytes offset text)

end Position

end AnnotatedSql
