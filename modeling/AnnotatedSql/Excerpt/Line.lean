import AnnotatedSql.Text.Line
import AnnotatedSql.Text.Width

/-!
# Lines of a source

The lines of a text with their places in it, and the location of a byte among them.
-/

namespace AnnotatedSql

/-- A line of a text. -/
structure SourceLine where
  /-- Counted from one. -/
  number : Nat
  /-- Where the line starts. -/
  start : Nat
  /-- Where the next line starts. -/
  stop : Nat
  /-- The line without its terminator. -/
  content : List Char
  deriving DecidableEq, Repr

/-- A place in a line. -/
structure Location where
  line : Nat
  /-- The number of characters before it. -/
  column : Nat
  /-- The number of terminal columns before it. -/
  offset : Nat
  byte : Nat
  deriving DecidableEq, Repr, Inhabited

namespace Location

/-- Whether two locations on a line have the same terminal column and the same character. -/
def sameColumn (a b : Location) : Bool := a.offset == b.offset && a.column == b.column

/-- Whether a location on a line does not stand after another: of two on the same terminal column
the one with more characters before it stands after. -/
def columnLE (a b : Location) : Bool :=
  a.offset < b.offset || (a.offset == b.offset && a.column ≤ b.column)

end Location

namespace SourceLine

/-- A carriage return ends a line only before a line feed. -/
def contentOf (line : List Char) : List Char :=
  if line.getLast? == some '\n' then lineContent line else line

/-- Puts lines at their places. -/
def placeLines (count start : Nat) : List (List Char) → List SourceLine
  | [] => []
  | line :: rest =>
    let stop := start + byteLength line
    ⟨count, start, stop, contentOf line⟩ :: placeLines (count + 1) stop rest

/-- The lines of a text. An empty text has one empty line. -/
def ofText (text : List Char) : List SourceLine :=
  match text with
  | [] => [⟨1, 0, 0, []⟩]
  | _ :: _ => placeLines 1 0 (lines text)

/-- Where the terminator starts. -/
def contentStop (line : SourceLine) : Nat := line.start + byteLength line.content

/-- The line that a byte lies in; past the end, the last line. -/
def at? (lines : List SourceLine) (byte : Nat) : Option SourceLine :=
  match lines.find? fun line => line.start ≤ byte && byte < line.stop with
  | some line => some line
  | none => lines.getLast?

/-- The location of a byte. One within the terminator counts as right after the content. -/
def locate (lines : List SourceLine) (byte : Nat) : Location :=
  match at? lines byte with
  | none => ⟨1, 0, 0, byte⟩
  | some line =>
    let before := takeBytes (byte - line.start) line.content
    ⟨line.number, before.length, textWidth before, byte⟩

/-- Whether a byte lies beyond the content of its line, and not right after it. -/
def isBeyond (lines : List SourceLine) (byte : Nat) : Bool :=
  (at? lines byte).any fun line => line.contentStop < byte

/-- Where a span starts. Beyond the content of the line it is one column further. -/
def locateStart (lines : List SourceLine) (span : Span) : Location :=
  let found := locate lines span.start
  if isBeyond lines span.start then { found with column := found.column + 1 } else found

/-- Where a span ends. On a line of its own it may take in the terminator as one column more. -/
def locateStop (lines : List SourceLine) (span : Span) : Location :=
  let start := locateStart lines span
  if span.start == span.stop then start
  else
    let found := locate lines span.stop
    if start.line != found.line && isBeyond lines span.stop then
      { found with column := found.column + 1, offset := found.offset + 1 }
    else found

end SourceLine

end AnnotatedSql
