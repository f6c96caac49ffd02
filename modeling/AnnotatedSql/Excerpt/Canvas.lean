import AnnotatedSql.Diagnostic.Kind

/-!
# Canvases

A canvas is a grid of styled characters that grows as it is drawn on. Rows and columns count from
zero; a character takes one cell however wide it is shown. A canvas is written out as plain text or
with the escape sequences of a color terminal.
-/

namespace AnnotatedSql

/-- How severe the text under a title is. -/
inductive Level
  | error
  | warning
  | note
  deriving DecidableEq, Repr

namespace Level

/-- The level of a report. -/
def ofSeverity : Severity → Level
  | .error => .error
  | .warning => .warning

/-- The word that a title begins with. -/
def name : Level → String
  | error => "error"
  | warning => "warning"
  | note => "note"

end Level

/-- What a character on the canvas is part of. -/
inductive Style
  | plain
  /-- A main title. -/
  | title
  /-- The level of the report and the text its marks point at. -/
  | level
  /-- Line numbers, rules and marks of less weight. -/
  | frame
  deriving DecidableEq, Repr

namespace Style

/-- The escape sequence that switches to the style. -/
def escape (level : Level) : Style → String
  | plain => ""
  | title => "\x1b[1m"
  | .level => match level with
    | .error => "\x1b[1m\x1b[91m"
    | .warning => "\x1b[1m\x1b[33m"
    | .note => "\x1b[1m\x1b[92m"
  | frame => "\x1b[1m\x1b[94m"

/-- The escape sequence that switches back to plain text. -/
def reset : Style → String
  | plain => ""
  | _ => "\x1b[0m"

end Style

/-- A character and what it is part of. -/
structure Cell where
  char : Char
  style : Style
  deriving DecidableEq, Repr

namespace Cell

/-- What fills a row up to a cell that is drawn. -/
def blank : Cell := ⟨' ', .plain⟩

end Cell

/-- A text to draw from a cell to the right. -/
structure Stroke where
  row : Nat
  column : Nat
  text : List Char
  style : Style
  deriving DecidableEq, Repr

/-- The items, with as many more as reach the length. -/
def padTo {α : Type} (item : α) (length : Nat) (items : List α) : List α :=
  items ++ List.replicate (length - items.length) item

/-- The rows of a canvas from the top. -/
structure Canvas where
  rows : List (List Cell) := []
  deriving DecidableEq, Repr

namespace Canvas

/-- The number of rows. -/
def height (canvas : Canvas) : Nat := canvas.rows.length

/-- A row; one that was never drawn on is empty. -/
def row (canvas : Canvas) (i : Nat) : List Cell := canvas.rows[i]?.getD []

/-- Changes a row, after adding empty rows down to it. -/
def modifyRow (canvas : Canvas) (i : Nat) (change : List Cell → List Cell) : Canvas :=
  ⟨(padTo [] (i + 1) canvas.rows).modify i change⟩

/-- Puts a character into a cell. -/
def put (canvas : Canvas) (row column : Nat) (cell : Cell) : Canvas :=
  canvas.modifyRow row fun cells => (padTo .blank (column + 1) cells).set column cell

/-- Draws a text over what is there. -/
def stroke (canvas : Canvas) (stroke : Stroke) : Canvas :=
  stroke.text.zipIdx.foldl (fun canvas (c, i) =>
    canvas.put stroke.row (stroke.column + i) ⟨c, stroke.style⟩) canvas

/-- Draws texts one after another. -/
def draw (canvas : Canvas) (strokes : List Stroke) : Canvas := strokes.foldl Canvas.stroke canvas

/-- Draws a text after the last cell of a row. -/
def append (canvas : Canvas) (row : Nat) (text : List Char) (style : Style) : Canvas :=
  canvas.stroke ⟨row, (canvas.row row).length, text, style⟩

/-- Replaces the cells from `start` to before `stop` by a text at their start, if the row reaches
that far. -/
def replace (canvas : Canvas) (row start stop : Nat) (text : List Char) (style : Style) : Canvas :=
  let cells := canvas.row row
  if start == stop || cells.length < start || cells.length < stop then canvas
  else canvas.modifyRow row fun cells =>
    cells.take start ++ text.map (⟨·, style⟩) ++ cells.drop stop

/-- A row with escape sequences wherever the style changes; `style` is the one before it. -/
def colorRow (level : Level) (style : Style) : List Cell → String
  | [] => style.reset
  | cell :: cells =>
    let switch := if cell.style == style then "" else style.reset ++ cell.style.escape level
    switch ++ String.singleton cell.char ++ colorRow level cell.style cells

/-- The rows as text, joined by line feeds. -/
def write (canvas : Canvas) (level : Level) (colored : Bool) : String :=
  String.intercalate "\n" (canvas.rows.map fun cells =>
    if colored then colorRow level .plain cells else String.ofList (cells.map Cell.char))

end Canvas

end AnnotatedSql
