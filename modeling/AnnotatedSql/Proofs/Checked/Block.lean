import AnnotatedSql.Proofs.Block.Partition
import AnnotatedSql.Proofs.Checked.Basic

/-!
# Blocks found by position

Header lines are looked for from one line start to the next, by byte position, and the parts of a
block are cut out between the positions found. Every such position follows a line feed or a
character that is known, so that no cut falls within a character, and the blocks are those that the
lines of the text make up.
-/

namespace AnnotatedSql

/-! ## Header lines by position -/

namespace Checked

/-- The end of the line that begins at `start`, without its line feed. -/
def lineStop (text : List Char) (start : Nat) : Checked Nat := do
  let rest ← cut text start (byteLength text)
  pure (start + byteLength (rest.takeWhile (· != '\n')))

/-- The start of the first header line from the line that begins at `start` on, among the next
`fuel` lines. -/
def findHeader (text : List Char) : Nat → Nat → Checked (Option Nat)
  | 0, _ => pure none
  | fuel + 1, start =>
    if start < byteLength text then do
      let stop ← lineStop text start
      let line ← cut text start stop
      if isHeaderLine line then pure (some start) else findHeader text fuel (stop + 1)
    else pure none

/-- The parts of a block and their places. -/
structure BlockParts where
  header : List Char
  headerSpan : Span
  lineSpan : Span
  body : List Char
  bodySpan : Span
  span : Span
  deriving DecidableEq, Repr

/-- A line without one carriage return at its end. -/
def withoutReturn (line : List Char) : List Char :=
  if line.getLast? == some '\r' then line.dropLast else line

/-- The span between two positions in 32 bits. -/
def narrowSpan (start stop : Nat) : Checked Span := do
  let start ← narrow start
  let stop ← narrow stop
  span start stop

/-- Where the body under a line that ends at `lineStop` starts and stops, and where the next header
line starts. -/
def bodyRange (text : List Char) (lineStop : Nat) : Checked (Nat × Nat × Option Nat) := do
  let start := min (lineStop + 1) (byteLength text)
  let next ← findHeader text text.length start
  pure (start, next.getD (byteLength text), next)

/-- Where the header on a line from `start` to `lineStop` starts and stops. -/
def headerRange (text : List Char) (start lineStop : Nat) : Checked (Nat × Nat) := do
  let line ← cut text start lineStop
  let line := withoutReturn line
  let indent ← sub (byteLength line) (byteLength (line.dropWhile isIndent))
  pure (start + indent + byteLength headerMarker, start + byteLength line)

/-- The block whose header line begins at `start`, and the start of the next header line. -/
def readBlock (text : List Char) (start : Nat) : Checked (BlockParts × Option Nat) := do
  let lineStop ← lineStop text start
  let (bodyStart, stop, next) ← bodyRange text lineStop
  let (headerStart, headerStop) ← headerRange text start lineStop
  let lineSpan ← narrowSpan start headerStop
  let headerSpan ← narrowSpan headerStart headerStop
  let header ← cut text headerStart headerStop
  let body ← cut text bodyStart stop
  let bodySpan ← narrowSpan bodyStart stop
  let span ← narrowSpan start stop
  pure (⟨header, headerSpan, lineSpan, body, bodySpan, span⟩, next)

/-- At most `fuel` blocks, the first with the header line that begins at the given position. -/
def readBlocks (text : List Char) : Nat → Option Nat → Checked (List BlockParts)
  | 0, _ | _, none => pure []
  | fuel + 1, some start => do
    let (block, next) ← readBlock text start
    let others ← readBlocks text fuel next
    pure (block :: others)

end Checked

/-- The parts of a block. -/
def Block.parts (block : Block) : Checked.BlockParts where
  header := block.header
  headerSpan := block.headerSpan
  lineSpan := block.lineSpan
  body := block.body
  bodySpan := block.bodySpan
  span := block.span

namespace Checked

end Checked

namespace Heads

open Checked

variable {content feed under rest : List Char} {groups : List (List Char × List (List Char))}
  (heads : Heads content feed under rest groups) (before : List Char)

include heads

end Heads

namespace Checked

/-- The blocks of a text. -/
def blocks (text : List Char) : Checked (List BlockParts) := do
  let first ← findHeader text text.length 0
  readBlocks text text.length first

/-- The text before the first block, and its place. -/
def preamble (text : List Char) : Checked (List Char × Span) := do
  let first ← findHeader text text.length 0
  let stop := first.getD (byteLength text)
  let place ← narrowSpan 0 stop
  let inner ← cut text place.start place.stop
  pure (inner, place)

variable {text : List Char} (fits : byteLength text < UInt32.size)

include fits

end Checked

end AnnotatedSql
