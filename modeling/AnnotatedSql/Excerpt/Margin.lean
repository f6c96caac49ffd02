import AnnotatedSql.Excerpt.Mark

/-!
# Margins

Lines that do not fit a terminal are cut so that the marks, and if possible their labels, stay in
view.
-/

namespace AnnotatedSql

/-- The part of the columns that is shown. -/
structure Margin where
  left : Nat
  right : Nat
  /-- How many columns there is room for. -/
  room : Nat
  deriving DecidableEq, Repr

namespace Margin

/-- The columns of a terminal. -/
def terminalWidth : Nat := 140

/-- The room on either side for a mark of omission. -/
def padding : Nat := 6

/-- The blanks a line starts with, in columns. -/
def indentation (content : List Char) : Nat :=
  (content.takeWhile isBlank).foldl (fun columns c => columns + if c == '\t' then 4 else 1) 0

/-- The least of some numbers, or zero. -/
def least (numbers : List Nat) : Nat := numbers.min?.getD 0

/-- The greatest of some numbers, or zero. -/
def greatest (numbers : List Nat) : Nat := numbers.max?.getD 0

/-- What has to be fitted into the room, with padding. -/
structure Demand where
  /-- The blanks that all lines begin with. -/
  indent : Nat
  /-- The first and last marked columns. -/
  first : Nat
  last : Nat
  /-- The last column of a label. -/
  label : Nat
  /-- The length of the longest line. -/
  length : Nat

/-- What marked lines ask for. -/
def demand (marked : List MarkedLine) : Demand :=
  let pieces := (marked.flatMap MarkedLine.pieces).filter (!·.isThrough)
  let ends := pieces.flatMap fun p => [p.start.offset, p.stop.offset]
  let told := marked.filter fun m => m.line.content.any (!isBlank ·)
  { indent := min (least (told.map fun m => indentation m.line.content)) (least ends) - padding
    first := least ends - padding
    last := greatest ends + padding
    label := greatest (pieces.map fun p =>
      p.stop.offset + (p.label.map fun l => textWidth l.toList + 1).getD 0) + padding
    length := greatest (marked.map fun m => textWidth m.line.content) }

/-- The part to show of lines with the given demand. Much blank space on the left is cut in any
case. -/
def fit (room : Nat) (d : Demand) : Margin :=
  let left := if 20 < d.indent then d.indent - 16 else 0
  let right := max d.length left
  if right - left ≤ room then ⟨left, right, room⟩
  else if d.label - d.indent ≤ room then ⟨d.indent, d.indent + room, room⟩
  else if d.label - d.first ≤ room then
    let left := d.first - (room - (d.label - d.first)) / 2
    ⟨left, left + room, room⟩
  else if d.last - d.first ≤ room then
    let left := d.first - (room - (d.last - d.first)) / 5 * 2
    ⟨left, left + room, room⟩
  else ⟨d.first, d.last, room⟩

/-- The part to show of marked lines whose text starts at column `code`. -/
def ofLines (code : Nat) (marked : List MarkedLine) : Margin :=
  fit (terminalWidth - code) (demand marked)

/-- The first column to show of a line with the given width. -/
def leftOf (margin : Margin) (width : Nat) : Nat := min margin.left width

/-- The column after the last to show. -/
def rightOf (margin : Margin) (width : Nat) : Nat :=
  if width - margin.left ≤ margin.room then width else min width margin.right

end Margin

end AnnotatedSql
