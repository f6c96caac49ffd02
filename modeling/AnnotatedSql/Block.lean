import AnnotatedSql.Text.Line
import AnnotatedSql.Token.Lexer

/-!
# Query blocks

A module is a preamble and then blocks. A block is a header line and the lines after it up to the
next header line. A header line is one whose first characters after spaces and tabs are the header
marker. The preamble and the blocks follow one another without a gap and make up the module.
-/

namespace AnnotatedSql

/-- What a header line begins with. -/
def headerMarker : List Char := "--!".toList

/-- Spaces and tabs may stand before the marker. -/
def isIndent (c : Char) : Bool := c == ' ' || c == '\t'

/-- Whether the line starts a block. -/
def isHeaderLine (line : List Char) : Bool := headerMarker.isPrefixOf (line.dropWhile isIndent)

/-- Lines gathered under the header lines that precede them, after those that precede any. -/
def groupByHeader : List (List Char) → List (List Char) × List (List Char × List (List Char))
  | [] => ([], [])
  | line :: rest =>
    let (preamble, groups) := groupByHeader rest
    if isHeaderLine line then ([], (line, preamble) :: groups) else (line :: preamble, groups)

/-- A header line and the text it heads, at their place in the module. -/
structure Block where
  /-- Where the header line starts. -/
  start : Nat
  /-- The header line with its line feed. -/
  line : List Char
  body : List Char
  deriving DecidableEq, Repr

namespace Block

/-- The header line up to its end, marker included. -/
def content (block : Block) : List Char := lineContent block.line

/-- The blanks before the marker. -/
def indent (block : Block) : List Char := block.content.takeWhile isIndent

/-- The header text after the marker. -/
def header (block : Block) : List Char :=
  block.content.drop (block.indent.length + headerMarker.length)

/-- The header line without its line terminator. -/
def lineSpan (block : Block) : Span := ⟨block.start, block.start + byteLength block.content⟩

/-- The place of the header text after the marker. -/
def headerSpan (block : Block) : Span :=
  ⟨block.start + byteLength block.indent + byteLength headerMarker, block.lineSpan.stop⟩

/-- The place of the text that the header line heads. -/
def bodySpan (block : Block) : Span :=
  let start := block.start + byteLength block.line
  ⟨start, start + byteLength block.body⟩

/-- The whole block. -/
def span (block : Block) : Span := ⟨block.start, block.bodySpan.stop⟩

/-- The tokens of the header that carry meaning. -/
def headerTokens (block : Block) : List Token := significantAt block.headerSpan.start block.header

/-- The tokens of the body that carry meaning. -/
def bodyTokens (block : Block) : List Token := significantAt block.bodySpan.start block.body

/-- Whether the header starts with a name. -/
def isNamed (block : Block) : Bool :=
  match block.headerTokens with
  | token :: _ => token.kind == .ident
  | [] => false

end Block

/-- A module cut into its blocks. -/
structure Layout where
  /-- The text before the first header line. -/
  preamble : List Char
  blocks : List Block

namespace Layout

/-- Puts groups of lines at their places, the first at `start`. -/
def placeBlocks (start : Nat) : List (List Char × List (List Char)) → List Block
  | [] => []
  | (line, rest) :: groups =>
    let block : Block := ⟨start, line, rest.flatten⟩
    block :: placeBlocks block.span.stop groups

/-- Cuts the text of a module. -/
def ofText (text : List Char) : Layout :=
  let (preamble, groups) := groupByHeader (lines text)
  ⟨preamble.flatten, placeBlocks (byteLength preamble.flatten) groups⟩

/-- The place of the preamble. -/
def preambleSpan (layout : Layout) : Span := ⟨0, byteLength layout.preamble⟩

end Layout

end AnnotatedSql
