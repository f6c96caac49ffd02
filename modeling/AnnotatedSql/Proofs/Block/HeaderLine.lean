import AnnotatedSql.Proofs.Block.Tiling
import AnnotatedSql.Source

/-!
# Header lines

The content of a header line is its blanks, the marker and the header, and the line terminator that
it lacks is at most a carriage return and a line feed. Every block begins with a header line, and the
header lines of a text, found line by line, are those its blocks begin with, in the same order.
-/

namespace AnnotatedSql

/-- Dropping a given last character looks at the last part only, unless the first ends with it. -/
theorem dropLast_append {c : Char} {a b : List Char} (other : a.getLast? ≠ some c) :
    (if (a ++ b).getLast? == some c then (a ++ b).dropLast else a ++ b) =
      a ++ if b.getLast? == some c then b.dropLast else b := by
  cases b with
  | nil => simp [other]
  | cons d b =>
    have last : (a ++ d :: b).getLast? = (d :: b).getLast? := by
      simp [List.getLast?_append, List.getLast?_cons]
    rw [last]
    split
    · rw [List.dropLast_append_of_ne_nil (by simp)]
    · rfl

theorem lineContent_append {a b : List Char} (noFeed : a.getLast? ≠ some '\n')
    (noReturn : a.getLast? ≠ some '\r') : lineContent (a ++ b) = a ++ lineContent b := by
  have feed : withoutLineFeed (a ++ b) = a ++ withoutLineFeed b := dropLast_append noFeed
  unfold lineContent
  rw [feed]
  exact dropLast_append noReturn

theorem lineContent_start (line : List Char) : lineContent line <+: line := by
  have feed : withoutLineFeed line <+: line := by
    unfold withoutLineFeed
    split
    · exact List.dropLast_prefix line
    · exact List.prefix_rfl
  unfold lineContent
  dsimp only
  split
  · exact (List.dropLast_prefix _).trans feed
  · exact feed

theorem byteLength_le_of_start {a b : List Char} (starts : a <+: b) :
    byteLength a ≤ byteLength b := by
  obtain ⟨rest, rfl⟩ := starts
  rw [byteLength_append]
  omega

/-- A header line is blanks, the marker and what follows it. -/
theorem isHeaderLine_iff {line : List Char} : isHeaderLine line = true ↔
    ∃ rest, line = line.takeWhile isIndent ++ headerMarker ++ rest := by
  unfold isHeaderLine
  rw [List.isPrefixOf_iff_prefix]
  constructor
  · rintro ⟨rest, marked⟩
    refine ⟨rest, ?_⟩
    rw [List.append_assoc, marked, List.takeWhile_append_dropWhile]
  · rintro ⟨rest, whole⟩
    refine ⟨rest, ?_⟩
    have split := List.takeWhile_append_dropWhile (p := isIndent) (l := line)
    rw [List.append_assoc] at whole
    exact List.append_cancel_left (whole.symm.trans split.symm)

namespace Block

variable {block : Block}

/-- The content of a header line is its blanks, the marker and the header. -/
theorem content_eq (headed : isHeaderLine block.line = true) :
    block.content = block.indent ++ headerMarker ++ block.header := by
  obtain ⟨rest, whole⟩ := isHeaderLine_iff.mp headed
  generalize blanks : block.line.takeWhile isIndent = indent at whole
  have allIndent : ∀ c ∈ indent, isIndent c = true := by
    rw [← blanks]
    exact fun c member => List.all_eq_true.mp List.all_takeWhile c member
  have marked : (indent ++ headerMarker).getLast? = some '!' := by
    simp [headerMarker, List.getLast?_append]
  have content : block.content = indent ++ headerMarker ++ lineContent rest := by
    unfold Block.content
    rw [whole]
    exact lineContent_append (by simp [marked]) (by simp [marked])
  have sameIndent : block.indent = indent := by
    unfold Block.indent
    rw [content, List.append_assoc, List.takeWhile_append_of_pos allIndent]
    simp [headerMarker, isIndent]
  have header : block.header = lineContent rest := by
    unfold Block.header
    rw [content, sameIndent, ← List.length_append, List.drop_left]
  rw [content, sameIndent, header]

/-- The header text ends where the content of the line ends. -/
theorem headerSpan_stop (headed : isHeaderLine block.line = true) :
    block.headerSpan.start + byteLength block.header = block.lineSpan.stop := by
  have measured := congrArg byteLength (content_eq headed)
  simp only [byteLength_append] at measured
  simp only [headerSpan, lineSpan, measured]
  omega

theorem lineSpan_stop_le (block : Block) :
    block.lineSpan.stop ≤ block.start + byteLength block.line :=
  Nat.add_le_add_left (byteLength_le_of_start (lineContent_start block.line)) block.start

end Block

/-- Every group begins with a header line. -/
theorem groupByHeader_headed {pieces : List (List Char)} {group : List Char × List (List Char)}
    (member : group ∈ (groupByHeader pieces).2) : isHeaderLine group.1 = true := by
  induction pieces with
  | nil => cases member
  | cons line rest ih =>
    rw [groupByHeader_cons] at member
    split at member
    next headed =>
      rcases List.mem_cons.mp member with rfl | member
      · exact headed
      · exact ih member
    · exact ih member

namespace Layout

theorem placeBlocks_line {start : Nat} {groups : List (List Char × List (List Char))}
    {block : Block} (member : block ∈ placeBlocks start groups) :
    ∃ group ∈ groups, group.1 = block.line := by
  induction groups generalizing start with
  | nil => cases member
  | cons group rest ih =>
    rw [placeBlocks] at member
    rcases List.mem_cons.mp member with rfl | member
    · exact ⟨group, by simp, rfl⟩
    · obtain ⟨other, inRest, same⟩ := ih member
      exact ⟨other, by simp [inRest], same⟩

/-- Every block begins with a header line. -/
theorem block_headed {text : List Char} {block : Block} (member : block ∈ (ofText text).blocks) :
    isHeaderLine block.line = true := by
  obtain ⟨group, grouped, same⟩ := placeBlocks_line member
  rw [← same]
  exact groupByHeader_headed grouped

end Layout

/-! ## The header lines of the sources -/

/-- A header line of a source, by its place. -/
structure HeaderSite where
  source : Nat
  /-- The line with its line feed. -/
  line : Span
  /-- The text from the start of the line to the next header line, or to the end. -/
  block : Span
  deriving DecidableEq, Repr

/-- The header lines among the lines of a text, of which the first starts at `offset`. -/
def headerSites (source offset : Nat) : List (List Char) → List HeaderSite
  | [] => []
  | line :: rest =>
    let next := offset + byteLength line
    let under := (rest.takeWhile fun line => !isHeaderLine line).flatten
    if isHeaderLine line then
      ⟨source, ⟨offset, next⟩, ⟨offset, next + byteLength under⟩⟩ :: headerSites source next rest
    else headerSites source next rest

/-- The header lines of all sources, in the order of the sources and then of the text. -/
def allHeaderSites (sources : List Source) : List HeaderSite :=
  sources.zipIdx.flatMap fun (source, index) => headerSites index 0 (lines source.text.toList)

/-- The place of the header line that a block begins with. -/
def Block.site (source : Nat) (block : Block) : HeaderSite :=
  ⟨source, ⟨block.start, block.start + byteLength block.line⟩, block.span⟩

/-- The preamble of some lines is the lines before the first header line. -/
theorem groupByHeader_preamble (pieces : List (List Char)) :
    (groupByHeader pieces).1 = pieces.takeWhile fun line => !isHeaderLine line := by
  induction pieces with
  | nil => rfl
  | cons line rest ih =>
    rw [groupByHeader_cons, List.takeWhile_cons]
    cases isHeaderLine line with
    | true => rfl
    | false => simp [ih]

theorem placeBlocks_sites (source offset : Nat) (pieces : List (List Char)) :
    (Layout.placeBlocks (offset + byteLength (groupByHeader pieces).1.flatten)
        (groupByHeader pieces).2).map (Block.site source) = headerSites source offset pieces := by
  induction pieces generalizing offset with
  | nil => rfl
  | cons line rest ih =>
    unfold headerSites
    dsimp only
    rw [groupByHeader_cons, ← groupByHeader_preamble, ← ih]
    split
    · simp only [List.flatten_nil, byteLength_nil, Nat.add_zero, Layout.placeBlocks, List.map_cons]
      rfl
    · simp only [List.flatten_cons, byteLength_append, Nat.add_assoc]

/-- The blocks of a text begin at its header lines. -/
theorem Layout.ofText_sites (source : Nat) (text : List Char) :
    (ofText text).blocks.map (Block.site source) = headerSites source 0 (lines text) := by
  rw [← placeBlocks_sites, Nat.zero_add]
  rfl

end AnnotatedSql
