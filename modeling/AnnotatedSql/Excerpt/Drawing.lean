import AnnotatedSql.Excerpt.Canvas
import AnnotatedSql.Excerpt.Margin
import AnnotatedSql.Text.Shown

/-!
# Drawing of marked lines

A marked line is drawn as its text after its number, and rows below it: carets or dashes under the
pieces, then rules down to the labels that do not fit beside them. Stretches have a rule on the
left of the text. Labels are assigned to rows from right to left, and where pieces or labels would
cross, the later ones go further down.
-/

namespace AnnotatedSql

/-- What stands to the left of the text. -/
structure Gutter where
  /-- The width of the greatest line number. -/
  numberWidth : Nat
  /-- The greatest depth of a stretch. -/
  depth : Nat

namespace Gutter

/-- The column of the rule beside the line numbers. -/
def rule (gutter : Gutter) : Nat := gutter.numberWidth + 1

/-- The column of the rule of a stretch. -/
def stretch (gutter : Gutter) (depth : Nat) : Nat := gutter.numberWidth + 2 + depth

/-- The column where text starts. -/
def code (gutter : Gutter) : Nat :=
  gutter.numberWidth + 3 + if gutter.depth == 0 then 0 else gutter.depth + 1

/-- The rule beside the line numbers, in one row. -/
def ruleStroke (gutter : Gutter) (row : Nat) : Stroke := ⟨row, gutter.rule, ['|'], .frame⟩

/-- The rule of a stretch, in one row. -/
def stretchStroke (gutter : Gutter) (row depth : Nat) (style : Style) : Stroke :=
  ⟨row, gutter.stretch depth, ['|'], style⟩

/-- The mark of omitted lines. -/
def omissionStroke (row : Nat) : Stroke := ⟨row, 0, ['.', '.', '.'], .frame⟩

end Gutter

/-! ## Text of a line -/

/-- The characters before a given column, and the columns they take. -/
def skipColumns (column : Nat) : Nat → List Char → List Char × Nat
  | skipped, [] => ([], skipped)
  | skipped, c :: text =>
    if skipped < column then skipColumns column (skipped + charWidth c) text
    else (c :: text, skipped)

/-- The characters that fit into some columns. -/
def takeColumns (room : Nat) : Nat → List Char → List Char
  | _, [] => []
  | taken, c :: text =>
    if taken + charWidth c ≤ room then c :: takeColumns room (taken + charWidth c) text else []

/-- The first characters that take at least three columns together: how many they are, and the
columns they take. -/
def omissionExtent : Nat → Nat → List Char → Nat × Nat
  | count, width, [] => (count, width)
  | count, width, c :: text =>
    let width := width + charWidth c
    if 3 ≤ width then (count + 1, width) else omissionExtent (count + 1) width text

/-- A line number, flush right. -/
def numberText (width number : Nat) : List Char :=
  let digits := (toString number).toList
  List.replicate (width - digits.length) ' ' ++ digits

/-- Draws the text of a line in a row. Returns the first column shown. -/
def lineStrokes (gutter : Gutter) (margin : Margin) (row : Nat) (line : SourceLine) :
    List Stroke × Nat :=
  let text := visibleText line.content
  let width := textWidth text
  let right := margin.rightOf width
  let (rest, skipped) := skipColumns (margin.leftOf width) 0 text
  let left := max (margin.leftOf width) skipped
  let shown := takeColumns (right - margin.leftOf width) 0 rest
  let (cut, cutWidth) := if 0 < margin.left then omissionExtent 0 0 shown else (0, 0)
  let omission (column : Nat) : Stroke := ⟨row, column, ['.', '.', '.'], .frame⟩
  let leftOmission := if 0 < margin.left then [omission gutter.code] else []
  let rightOmission := if right < width then
    [omission (gutter.code + cutWidth + (shown.length - cut) -
      (omissionExtent 0 0 shown.reverse).1)] else []
  (leftOmission ++ [⟨row, gutter.code + cutWidth, shown.drop cut, .plain⟩] ++ rightOmission ++
    [⟨row, 0, numberText gutter.numberWidth line.number, .frame⟩, gutter.ruleStroke row], left)

/-! ## Rows of pieces -/

/-- Whether a piece with some padding overlaps another. -/
def Piece.overlaps (a b : Piece) (pad : Nat) : Bool :=
  let aStop := a.stop.offset + pad
  (b.start.offset ≤ a.start.offset && a.start.offset < b.stop.offset) ||
    (a.start.offset ≤ b.start.offset && b.start.offset < aStop)

/-- Whether two pieces lie on the same characters and only the first has a label. -/
def Piece.covers (a b : Piece) : Bool :=
  a.start.sameColumn b.start && a.stop.sameColumn b.stop && !b.hasLabel

/-- Whether a piece on the left keeps the label of this one from standing beside it. -/
def Piece.isBlockedBy (piece other : Piece) : Bool :=
  other.overlaps piece 0 && !piece.covers other

/-- Whether the label of a piece cannot stand beside it because of the pieces on its left. -/
def mustDrop (piece : Piece) (others : List Piece) : Bool :=
  piece.hasLabel && others.any piece.isBlockedBy

/-- Whether a piece on the left has to go below this one, which is in the given row. -/
def mustGoBelow (row : Nat) (piece other : Piece) : Bool :=
  let reach := (other.label.map fun label => label.utf8ByteSize + 2).getD 0
  (other.overlaps piece reach && piece.hasLabel && other.hasLabel) ||
    (piece.takesRow && other.hasLabel) || (piece.hasLabel && other.takesRow) ||
    (piece.takesRow && other.takesRow) ||
    (other.overlaps piece reach && other.stop.columnLE piece.stop && other.hasLabel &&
      row == 0)

/-- A piece with the row of its label or rule, counted from the first below the text. -/
abbrev PlacedPiece := Nat × Piece

/-- The row that a piece takes when the given one is reached. -/
def ownRow (row : Nat) (piece : Piece) (others : List Piece) : Nat :=
  if row == 0 && mustDrop piece others then 1 else row

/-- The row reached after a piece in the given row. -/
def rowAfter (own : Nat) (piece : Piece) (others : List Piece) : Nat :=
  if others.any (mustGoBelow own piece) then own + 1 else own

/-- Assigns rows to pieces, given from right to left, and returns the last row reached. -/
def assignRows : Nat → List Piece → List PlacedPiece × Nat
  | row, [] => ([], row)
  | row, piece :: others =>
    let own := ownRow row piece others
    let (placed, last) := assignRows (rowAfter own piece others) others
    ((own, piece) :: placed, last)

/-- The pieces on the left that are looked at before the row of this one is settled: all of them,
or those up to the first that makes it drop from the first row. -/
def lookedAt (row : Nat) (piece : Piece) (others : List Piece) : List Piece :=
  if row == 0 && piece.hasLabel then
    others.take ((others.takeWhile (!piece.isBlockedBy ·)).length + 1)
  else others

/-- Pieces that all open stretches take their rows in reverse, so that no rules cross. -/
def reverseOpenings (placed : List PlacedPiece) : List PlacedPiece :=
  let last := Margin.greatest (placed.map Prod.fst)
  placed.map fun (row, piece) => (last - row, piece)

/-! ## Strokes below a line -/

namespace Piece

/-- Primary marks have the color of their level. -/
def style (piece : Piece) : Style := if piece.isPrimary then .level else .frame

/-- The character under a piece. -/
def underline (piece : Piece) : Char := if piece.isPrimary then '^' else '-'

end Piece

/-- Where a line is drawn: its row, and the first column shown. -/
structure LinePlace where
  gutter : Gutter
  row : Nat
  left : Nat

namespace LinePlace

/-- The column of the canvas for a column of the text. -/
def column (place : LinePlace) (offset : Nat) : Nat := place.gutter.code + offset - place.left

/-- The rule from a stretch to the end of it on this line. -/
def horizontal (place : LinePlace) : PlacedPiece → List Stroke
  | (row, piece) =>
    match piece.turnDepth? with
    | none => []
    | some depth =>
      let start := place.gutter.stretch depth + 1
      [⟨place.row + row + 1, start,
        List.replicate (place.column piece.start.offset - start) '_', piece.style⟩]

/-- The rules from a piece down to its label, and beside the text for a stretch. `rows` is the
number of rows below the text less one. -/
def vertical (place : LinePlace) (rows : Nat) : PlacedPiece → List Stroke
  | (row, piece) =>
    let rule (i column : Nat) : Stroke := ⟨place.row + i, column, ['|'], piece.style⟩
    let down := if 0 < row && (piece.hasLabel || piece.takesRow) then
      (List.range' 1 (row + 1)).map (rule · (place.column piece.start.offset)) else []
    let beside := match piece.shape with
      | .opening depth =>
        let column := place.gutter.stretch depth
        ⟨place.row + row + 1, column, [' '], piece.style⟩ ::
          (List.range' (row + 2) (rows - row)).map (rule · column)
      | .closing depth => (List.range (row + 2)).map (rule · (place.gutter.stretch depth))
      | _ => []
    down ++ beside

/-- The label of a piece: beside it in the first row, under its start in any other. -/
def label (place : LinePlace) : PlacedPiece → List Stroke
  | (row, piece) =>
    match piece.label with
    | none => []
    | some text =>
      let offset := if row == 0 then
          piece.stop.offset + (if piece.stop.offset == 0 then 2 else 1)
        else piece.start.offset
      let row := if row == 0 then 1 else row + 2
      [⟨place.row + row, place.gutter.code + (offset - place.left), text.toList, piece.style⟩]

/-- What stands right under the text of a piece. -/
def under (place : LinePlace) : PlacedPiece → List Stroke
  | (row, piece) =>
    let point (offset : Nat) : Stroke :=
      ⟨place.row + 1, place.column offset, [piece.underline], piece.style⟩
    let line := (List.range' piece.start.offset piece.width).map point
    line ++
      if piece.takesRow || (row != 0 && piece.hasLabel) then [point piece.start.offset] else []

end LinePlace

/-- Wide pieces first, so that narrow ones are drawn over them; of equal ones the primary last. -/
def underlineOrder (a b : PlacedPiece) : Bool :=
  b.2.width < a.2.width || (a.2.width == b.2.width && (!a.2.isPrimary || b.2.isPrimary))

/-- The pairs of pieces, by index, that are found to overlap while rows are assigned to them, from
index `i` on. A pair counts only if the second piece comes after the first two. `before` are the
pieces with smaller indices. -/
def crowdedPairs (before : List Piece) (i row : Nat) : List Piece → List (Nat × Nat)
  | [] => []
  | piece :: others =>
    let seen := before ++ piece :: lookedAt row piece others
    let found := seen.zipIdx.filter fun (other, j) => 1 < j && other.overlaps piece 0
    found.map (fun (_, j) => (i, j)) ++
      crowdedPairs (before ++ [piece]) (i + 1) (rowAfter (ownRow row piece others) piece others)
        others

/-- Which pieces, by index, are in a pair that overlaps. -/
def crowded (pieces : List Piece) : List Bool :=
  let pairs := crowdedPairs [] 0 0 pieces
  (List.range pieces.length).map fun k => pairs.any fun (i, j) => i == k || j == k

/-- Cuts the middle out of a piece that is much too wide, in its text and under it. -/
def cutMiddle (place : LinePlace) (room : Nat) (canvas : Canvas) (piece : Piece) : Canvas :=
  if piece.shape == .whole && room * 2 < piece.width && 10 < piece.width then
    let pad := max (room / 3) 5
    let start := place.column (piece.start.offset + pad)
    let stop := place.column (piece.stop.offset - pad)
    let cut (canvas : Canvas) (row : Nat) := canvas.replace row start stop ['.', '.', '.'] .frame
    cut (cut canvas place.row) (place.row + 1)
  else canvas

/-- Whether the line only opens stretches before any of its text, or is within some: then their
rules start beside the text itself. -/
def opensAtStart (text : List Char) (pieces : List Piece) : Bool :=
  pieces.all fun piece => piece.isThrough ||
    (piece.openingDepth?.isSome && (text.take piece.start.offset).all isBlank)

/-- The stretches that open or close on a line, by depth, with their styles. -/
def turns (pieces : List Piece) : List (Nat × Style) :=
  pieces.filterMap fun piece => piece.turnDepth?.map (·, piece.style)

/-- The stretches that open on a line, by depth, with their styles. -/
def openings (pieces : List Piece) : List (Nat × Style) :=
  pieces.filterMap fun piece => piece.openingDepth?.map (·, piece.style)

/-- Draws a marked line under what is on the canvas. Returns the stretches that open or close. -/
def drawLine (gutter : Gutter) (margin : Margin) (canvas : Canvas) (marked : MarkedLine) :
    Canvas × List (Nat × Style) :=
  let row := canvas.height
  let (text, left) := lineStrokes gutter margin row marked.line
  let canvas := canvas.draw text
  if opensAtStart (visibleText marked.line.content) marked.pieces then
    let opened := openings marked.pieces
    (canvas.draw (opened.map fun (depth, style) => ⟨row, gutter.stretch depth, ['/'], style⟩),
      opened)
  else
    let sorted := marked.pieces.mergeSort fun a b => b.start.columnLE a.start
    let (placed, last) := assignRows 0 sorted
    let rows := if last == 0 then 0 else last + 1
    let allOpen := sorted.all (·.openingDepth?.isSome)
    let placed := if allOpen then reverseOpenings placed else placed
    let rows := if allOpen then rows - 1 else rows
    let place : LinePlace := ⟨gutter, row, left⟩
    let ordered := placed.mergeSort underlineOrder
    let canvas := canvas.draw (
      (List.range (rows + 1)).map (fun i => gutter.ruleStroke (row + i + 1)) ++
      placed.flatMap place.horizontal ++ placed.flatMap (place.vertical rows) ++
      placed.flatMap place.label ++ ordered.flatMap place.under)
    let lone := (ordered.zip (crowded sorted)).filterMap fun (placed, isCrowded) =>
      if isCrowded then none else some placed.2
    (lone.foldl (cutMiddle place margin.room) canvas, turns (ordered.map Prod.snd))

/-! ## Runs of lines -/

/-- Lets stretches turn one after another. One that is open closes; any other comes in, in place of
one that came in at its depth before. Returns the stretches that run on and those that came in. -/
def turn (opened turning : List (Nat × Style)) : List (Nat × Style) × List (Nat × Style) :=
  turning.foldl (fun (running, entered) (depth, style) =>
    if running.any (·.1 == depth) then (running.filter (·.1 != depth), entered)
    else (running, entered.filter (·.1 != depth) ++ [(depth, style)])) (opened, [])

/-- Draws the rules of open stretches in the rows from `first` to before `last`. -/
def drawStretches (gutter : Gutter) (canvas : Canvas) (first last : Nat)
    (opened : List (Nat × Style)) : Canvas :=
  canvas.draw (opened.flatMap fun (depth, style) =>
    (List.range' first (last - first)).map (gutter.stretchStroke · depth style))

/-- Draws what stands for the lines between two marked lines: nothing, the one line, or a mark of
omission. `opened` are the stretches that run through. -/
def drawGap (gutter : Gutter) (margin : Margin) (lines : List SourceLine) (canvas : Canvas)
    (number next : Nat) (opened : List (Nat × Style)) : Canvas :=
  let row := canvas.height
  if next ≤ number + 1 then canvas
  else
    let between := if next == number + 2 then lines.find? (·.number == number + 1) else none
    let strokes := match between with
      | some line => (lineStrokes gutter margin row line).1
      | none => [Gutter.omissionStroke row]
    drawStretches gutter (canvas.draw strokes) row (row + 1) opened

/-- Draws marked lines one after another. -/
def drawLines (gutter : Gutter) (margin : Margin) (lines : List SourceLine) :
    Canvas → List (Nat × Style) → List MarkedLine → Canvas
  | canvas, _, [] => canvas
  | canvas, opened, marked :: rest =>
    let first := canvas.height
    let (canvas, turning) := drawLine gutter margin canvas marked
    let (running, entered) := turn opened turning
    let canvas := drawStretches gutter canvas first canvas.height running
    let canvas := match rest with
      | [] => canvas
      | following :: _ =>
        drawGap gutter margin lines canvas marked.line.number following.line.number
          (running ++ openings marked.pieces)
    drawLines gutter margin lines canvas (running ++ entered) rest

end AnnotatedSql
