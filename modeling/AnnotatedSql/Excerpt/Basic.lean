import AnnotatedSql.Excerpt.Drawing

/-!
# Excerpts

An excerpt is a title over the marked lines of one source. A notice is a main excerpt, followed by
notes on other sources. All excerpts of a notice have their line numbers in columns of one width.
-/

namespace AnnotatedSql

/-- A titled view of a text with marks. -/
structure Excerpt where
  level : Level
  title : String
  path : String
  text : List Char
  marks : List Mark

/-- The parts of a text between line feeds. -/
def splitLines : List Char → List (List Char)
  | [] => [[]]
  | c :: text =>
    if c == '\n' then [] :: splitLines text
    else match splitLines text with
      | [] => [[c]]
      | line :: rest => (c :: line) :: rest

namespace Excerpt

/-- The number of the last marked line. -/
def lastLine (excerpt : Excerpt) : Nat :=
  let stop := Margin.greatest (excerpt.marks.map fun mark => mark.span.stop)
  max 1 (lines (takeBytes stop excerpt.text)).length

/-- Draws the title. The lines of a longer title stand under the first. The title of a note is
shown as it is. -/
def drawTitle (excerpt : Excerpt) (canvas : Canvas) : Canvas :=
  let isNote := excerpt.level == .note
  let style := if isNote then .plain else .title
  let label := excerpt.level.name.toList
  let text := if isNote then excerpt.title.toList else visibleText excerpt.title.toList
  let row := canvas.height
  let canvas := (canvas.append row label .level).append row [':', ' '] style
  (splitLines text).zipIdx.foldl (fun canvas (line, i) =>
    let canvas := if i == 0 then canvas
      else canvas.append (row + i) (List.replicate (label.length + 2) ' ') .plain
    canvas.append (row + i) line style) canvas

/-- Where the excerpt points: at the first piece of the first line with a primary piece, or of the
first line. -/
def origin (marked : List MarkedLine) : Nat × Nat :=
  let isMain (m : MarkedLine) := m.pieces.any Piece.isPrimary
  match (marked.find? isMain) <|> marked.head? with
  | none => (1, 1)
  | some m =>
    let primary := m.pieces.filter Piece.isPrimary
    let chosen := if primary.isEmpty then m.pieces else primary
    (m.line.number, Margin.least (chosen.map fun p => p.start.column) + 1)

/-- Draws the excerpt on an empty canvas. -/
def draw (excerpt : Excerpt) (numberWidth : Nat) : Canvas :=
  let lines := SourceLine.ofText excerpt.text
  let (marked, depth) := Mark.spreadOver lines excerpt.marks
  let gutter : Gutter := ⟨numberWidth, depth⟩
  let canvas := excerpt.drawTitle {}
  let (line, column) := origin marked
  let place := excerpt.path ++ ":" ++ toString line ++ ":" ++ toString column
  let row := canvas.height
  let canvas := canvas.draw [
    ⟨row, 0, List.replicate numberWidth ' ', .plain⟩,
    ⟨row, numberWidth, ['-', '-', '>', ' '], .frame⟩,
    ⟨row, numberWidth + 4, place.toList, .plain⟩,
    gutter.ruleStroke (row + 1)]
  drawLines gutter (Margin.ofLines gutter.code marked) lines canvas [] marked

/-- Writes a main excerpt with its notes. A rule leads from the main excerpt to the notes. -/
def writeAll (colored : Bool) (main : Excerpt) (notes : List Excerpt) : String :=
  let numberWidth := (toString (Margin.greatest ((main :: notes).map lastLine))).length
  let canvas := main.draw numberWidth
  let canvas := if notes.isEmpty then canvas
    else canvas.draw [⟨canvas.height, numberWidth + 1, ['|'], .frame⟩]
  String.intercalate "\n" (canvas.write main.level colored ::
    notes.map fun note => (note.draw numberWidth).write note.level colored)

end Excerpt

end AnnotatedSql
