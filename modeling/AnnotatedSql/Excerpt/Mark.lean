import AnnotatedSql.Excerpt.Line
import AnnotatedSql.Text.Line

/-!
# Marks

A mark points at a span of a text and may say something about it. On the lines of the text, a mark
within one line stays one piece. A mark over several lines is a stretch: it opens on its first
line, runs through lines between and closes on its last line. Stretches that meet run at different
depths beside the text.
-/

namespace AnnotatedSql

/-- A span to point at. -/
structure Mark where
  span : Span
  label : Option String
  /-- The main mark of a report. -/
  isPrimary : Bool
  deriving DecidableEq, Repr

/-- How a piece of a mark lies on its line. -/
inductive PieceShape
  | whole
  | opening (depth : Nat)
  | through (depth : Nat)
  | closing (depth : Nat)
  deriving DecidableEq, Repr

/-- The part of a mark on one line. -/
structure Piece where
  start : Location
  stop : Location
  isPrimary : Bool
  label : Option String
  shape : PieceShape
  deriving DecidableEq, Repr

namespace Piece

/-- Whether something is said about the piece. -/
def hasLabel (piece : Piece) : Bool := piece.label.any (· != "")

/-- Whether the piece needs a row for its horizontal rule. -/
def takesRow (piece : Piece) : Bool :=
  match piece.shape with
  | .opening _ | .closing _ => true
  | _ => false

/-- Whether a stretch only passes here. -/
def isThrough (piece : Piece) : Bool :=
  match piece.shape with
  | .through _ => true
  | _ => false

/-- The depth at which a stretch opens here. -/
def openingDepth? (piece : Piece) : Option Nat :=
  match piece.shape with
  | .opening depth => some depth
  | _ => none

/-- The depth at which a stretch opens or closes here. -/
def turnDepth? (piece : Piece) : Option Nat :=
  match piece.shape with
  | .opening depth | .closing depth => some depth
  | _ => none

/-- The columns under the piece. -/
def width (piece : Piece) : Nat := piece.stop.offset - piece.start.offset

end Piece

/-- A mark over several lines. -/
structure Stretch where
  start : Location
  stop : Location
  isPrimary : Bool
  label : Option String
  /-- How far from the text it runs, counted from one. -/
  depth : Nat
  /-- Another stretch with the same ends is drawn instead. -/
  isTwin : Bool
  deriving DecidableEq, Repr

namespace Stretch

/-- Whether two stretches start and stop at the same places. -/
def sameEnds (a b : Stretch) : Bool := a.start == b.start && a.stop == b.stop

/-- Whether two stretches have a line in common. -/
def meets (a b : Stretch) : Bool :=
  (b.start.line ≤ a.start.line && a.start.line ≤ b.stop.line) ||
    (a.start.line ≤ b.start.line && b.start.line ≤ a.stop.line)

/-- Stretches that start first come first, and of these the longer ones. -/
def precedes (a b : Stretch) : Bool :=
  a.start.line < b.start.line || (a.start.line == b.start.line && b.stop.line ≤ a.stop.line)

/-- Makes room beside a stretch. The stretches before it that meet it move on; others with the same
ends become twins of it; anything else, such as the stretch itself, ends the search. `primary` are
the primary stretches up to this one. -/
def makeRoom (stretch : Stretch) (primary : List Stretch) : List Stretch → List Stretch
  | [] => []
  | other :: rest =>
    if !stretch.sameEnds other && stretch.meets other then
      { other with depth := other.depth + 1 } :: makeRoom stretch primary rest
    else if stretch.sameEnds other && stretch != other then
      { other with isTwin := true } :: makeRoom stretch primary rest
    else
      { other with isPrimary := other.isPrimary || primary.any other.sameEnds } :: rest

/-- Makes room for all stretches in turn. -/
def spread (stretches : List Stretch) : List Stretch :=
  stretches.zipIdx.foldl (fun placed (stretch, i) =>
    makeRoom stretch ((stretches.take (i + 1)).filter isPrimary) placed) stretches

/-- The greatest depth; zero without stretches. -/
def maxDepth (stretches : List Stretch) : Nat := stretches.foldl (fun d s => max d s.depth) 0

/-- Stretches at their depths: those that start first run farthest from the text. -/
def arrange (stretches : List Stretch) : List Stretch :=
  let placed := spread (stretches.mergeSort precedes)
  placed.map fun s => { s with depth := maxDepth placed - s.depth + 1 }

/-- The piece on the first line. -/
def opening (s : Stretch) : Piece :=
  let next : Location :=
    { s.start with column := s.start.column + 1, offset := s.start.offset + 1
                   byte := s.start.byte + 1 }
  ⟨s.start, next, s.isPrimary, none, .opening s.depth⟩

/-- The piece on a line between. -/
def through (s : Stretch) : Piece :=
  ⟨⟨0, 0, 0, 0⟩, ⟨0, 0, 0, 0⟩, s.isPrimary, none, .through s.depth⟩

/-- The piece on the last line. -/
def closing (s : Stretch) : Piece :=
  let last : Location :=
    { s.stop with column := s.stop.column - 1, offset := s.stop.offset - 1
                  byte := s.stop.byte - 1 }
  ⟨last, s.stop, s.isPrimary, s.label, if s.isTwin then .whole else .closing s.depth⟩

/-- Whether a line says something: it is more than a bracket or a remark. -/
def isTelling (content : List Char) : Bool :=
  let text := String.ofList (trim content)
  let isRemark := text.startsWith "//" && !(text.startsWith "///" || text.startsWith "//!")
  !isRemark && !(["", "\x7b", "\x7d", "(", ")", "[", "]"].contains text)

/-- The content of the line with the given number. -/
def contentOf? (lines : List SourceLine) (number : Nat) : Option (List Char) :=
  (lines.find? (·.number == number)).map SourceLine.content

/-- Whether the line with the given number says something. -/
def isTellingLine (lines : List SourceLine) (number : Nat) : Bool :=
  (contentOf? lines number).any isTelling

/-- The lines between that are shown: those after the first up to the last telling one of four, and
the one before the end. -/
def shownLines (lines : List SourceLine) (s : Stretch) : List Nat :=
  let middle := min (s.start.line + 4) s.stop.line
  let early := List.range' s.start.line (middle - s.start.line)
  let telling := (early.reverse.find? (isTellingLine lines)).getD s.start.line
  let beforeLast := s.stop.line - 1
  List.range' (s.start.line + 1) (telling - s.start.line) ++
    if middle < beforeLast && (contentOf? lines beforeLast).all isTelling then [beforeLast]
    else []

/-- All pieces of a stretch with their lines. -/
def pieces (lines : List SourceLine) (s : Stretch) : List (Nat × Piece) :=
  let before := if s.isTwin then []
    else (s.start.line, s.opening) :: (shownLines lines s).map (·, s.through)
  before ++ [(s.stop.line, s.closing)]

end Stretch

/-- A line with pieces of marks. -/
structure MarkedLine where
  line : SourceLine
  pieces : List Piece

namespace Mark

/-- A mark at its place, over one line or several. -/
def place (lines : List SourceLine) (mark : Mark) : (Nat × Piece) ⊕ Stretch :=
  let start := SourceLine.locateStart lines mark.span
  let stop := SourceLine.locateStop lines mark.span
  if start.line == stop.line then
    let stop :=
      if start.offset == stop.offset then { stop with offset := stop.offset + 1 } else stop
    .inl (start.line, ⟨start, stop, mark.isPrimary, mark.label, .whole⟩)
  else .inr ⟨start, stop, mark.isPrimary, mark.label, 1, false⟩

/-- The lines that marks lie on, with their pieces: first those within one line, then those of
stretches. Returns the greatest depth of a stretch too. -/
def spreadOver (lines : List SourceLine) (marks : List Mark) : List MarkedLine × Nat :=
  let placed := marks.map (place lines)
  let stretches := Stretch.arrange (placed.filterMap Sum.getRight?)
  let pieces := placed.filterMap Sum.getLeft? ++ stretches.flatMap (Stretch.pieces lines)
  let marked := lines.map fun line =>
    (⟨line, (pieces.filter (·.1 == line.number)).map Prod.snd⟩ : MarkedLine)
  (marked.filter (!·.pieces.isEmpty), Stretch.maxDepth stretches)

end Mark

end AnnotatedSql
