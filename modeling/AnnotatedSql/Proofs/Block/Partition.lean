import AnnotatedSql.Proofs.Block.HeaderLine
import AnnotatedSql.Proofs.Text.Cutting
import Mathlib.Data.List.Basic

/-!
# Blocks partition the module

Header lines are told by their place in the text alone: they begin where a line begins. The preamble
and the blocks tile the text, a block begins wherever a header line does and nowhere else, and it is
its header line, the end of that line and its body.
-/

namespace AnnotatedSql

/-! ## Lines -/

theorem lines_feed {content : List Char} (noFeed : '\n' ∉ content) (rest : List Char) :
    lines (content ++ '\n' :: rest) = (content ++ ['\n']) :: lines rest := by
  induction content with
  | nil => rfl
  | cons c content ih =>
    rw [List.mem_cons, not_or] at noFeed
    rw [List.cons_append, lines_cons, ih noFeed.2]
    simp [Ne.symm noFeed.1]

theorem lines_last {content : List Char} (noFeed : '\n' ∉ content) (nonempty : content ≠ []) :
    lines content = [content] := by
  induction content with
  | nil => exact absurd rfl nonempty
  | cons c content ih =>
    rw [List.mem_cons, not_or] at noFeed
    rw [lines_cons]
    cases content with
    | nil => simp [Ne.symm noFeed.1, lines]
    | cons d content =>
      rw [ih noFeed.2 (by simp)]
      simp [Ne.symm noFeed.1]

/-- A text is empty, a last line without a line feed, or a line with one and the lines after it. -/
theorem lines_induction {motive : List Char → Prop} (empty : motive [])
    (last : ∀ content, content ≠ [] → '\n' ∉ content → motive content)
    (line : ∀ content rest, '\n' ∉ content → motive rest → motive (content ++ '\n' :: rest))
    (text : List Char) : motive text := by
  -- the first line is what stands before the first line feed
  have split := List.takeWhile_append_dropWhile (p := (· != '\n')) (l := text)
  have noFeed : '\n' ∉ text.takeWhile (· != '\n') := fun member => by
    have passed := List.all_eq_true.mp List.all_takeWhile _ member
    simp at passed
  cases after : text.dropWhile (· != '\n') with
  | nil =>
    rw [after, List.append_nil] at split
    rw [split] at noFeed
    by_cases none : text = []
    · exact none ▸ empty
    · exact last text none noFeed
  | cons c rest =>
    have feed : c = '\n' := by
      have stopped := List.head?_dropWhile_not (· != '\n') text
      rw [after] at stopped
      simpa using stopped
    subst feed
    rw [after] at split
    have shorter : rest.length < text.length := by
      rw [← split, List.length_append, List.length_cons]
      omega
    rw [← split]
    exact line _ rest noFeed (lines_induction empty last line rest)
termination_by text.length

/-- A text without a line feed is a start of a line if it is one of what stands before its feed. -/
theorem prefix_feed {a : List Char} (noFeed : '\n' ∉ a) (content rest : List Char) :
    a <+: content ++ '\n' :: rest ↔ a <+: content := by
  induction a generalizing content with
  | nil => simp
  | cons c a ih =>
    rw [List.mem_cons, not_or] at noFeed
    cases content with
    | nil => simp [Ne.symm noFeed.1]
    | cons d content =>
      rw [List.cons_append, List.cons_prefix_cons, List.cons_prefix_cons, ih noFeed.2]

/-- Whether a line is a header line does not depend on its line feed, nor on what follows. -/
theorem isHeaderLine_feed (content rest : List Char) :
    isHeaderLine (content ++ '\n' :: rest) = isHeaderLine content := by
  have noFeed : '\n' ∉ headerMarker := by decide
  have blank : ('\n' :: rest).dropWhile isIndent = [] ++ '\n' :: rest := rfl
  unfold isHeaderLine
  rw [Bool.eq_iff_iff, List.isPrefixOf_iff_prefix, List.isPrefixOf_iff_prefix,
    List.dropWhile_append]
  split
  next empty => rw [List.isEmpty_iff.mp empty, blank, prefix_feed noFeed]
  next => exact prefix_feed noFeed _ rest

/-- The text from the first header line on has the same blocks and no preamble. -/
theorem exists_headed (text : List Char) :
    ∃ rest, text = (groupByHeader (lines text)).1.flatten ++ rest ∧
      groupByHeader (lines rest) = ([], (groupByHeader (lines text)).2) := by
  have headed : ∀ text, (groupByHeader (lines text)).1 = [] →
      ∃ rest, text = (groupByHeader (lines text)).1.flatten ++ rest ∧
        groupByHeader (lines rest) = ([], (groupByHeader (lines text)).2) :=
    fun text none => ⟨text, by rw [none]; rfl, Prod.ext none rfl⟩
  induction text using lines_induction with
  | empty => exact headed [] rfl
  | last content nonempty noFeed =>
    have found := lines_last noFeed nonempty
    by_cases header : isHeaderLine content = true
    · exact headed _ (by rw [found, groupByHeader_cons, if_pos header])
    · refine ⟨[], ?_, ?_⟩
      · rw [found, groupByHeader_cons, if_neg header]
        simp [groupByHeader]
      · rw [found, groupByHeader_cons, if_neg header]
        rfl
  | line content rest noFeed ih =>
    have found := lines_feed noFeed rest
    by_cases header : isHeaderLine (content ++ ['\n']) = true
    · exact headed _ (by rw [found, groupByHeader_cons, if_pos header])
    · obtain ⟨blocks, whole, grouped⟩ := ih
      refine ⟨blocks, ?_, ?_⟩
      · rw [found, groupByHeader_cons, if_neg header]
        simp [← whole]
      · rw [found, groupByHeader_cons, if_neg header, grouped]

/-- The first line of a text, and the text after it. -/
theorem exists_firstLine {text line : List Char} {others : List (List Char)}
    (found : lines text = line :: others) :
    ∃ content feed rest, '\n' ∉ content ∧ line = content ++ feed ∧ text = line ++ rest ∧
      others = lines rest ∧ (feed = ['\n'] ∨ feed = [] ∧ rest = []) := by
  induction text using lines_induction with
  | empty => cases found
  | last content nonempty noFeed =>
    rw [lines_last noFeed nonempty] at found
    cases found
    exact ⟨line, [], [], noFeed, by simp, by simp, rfl, Or.inr ⟨rfl, rfl⟩⟩
  | line content rest noFeed _ =>
    rw [lines_feed noFeed] at found
    cases found
    exact ⟨content, ['\n'], rest, noFeed, rfl, by simp, rfl, Or.inl rfl⟩

/-- A text without a header line has no group, and a text of nothing but groups ends with them. -/
theorem eq_flatMap_groupText {text : List Char} {groups : List (List Char × List (List Char))}
    (grouped : groupByHeader (lines text) = ([], groups)) : text = groups.flatMap groupText := by
  have flat := groupByHeader_flatten (lines text)
  rw [grouped, lines_flatten] at flat
  exact flat.symm

/-- What the groups of a text say of a line in it: `under` are the lines it heads, and `rest` is
the text from the next header line on. -/
structure Heads (content feed under rest : List Char)
    (groups : List (List Char × List (List Char))) : Prop where
  noFeed : '\n' ∉ content
  ends : feed = ['\n'] ∨ feed = [] ∧ under ++ rest = []
  headed : isHeaderLine (content ++ feed) = true
  grouped : (groupByHeader (lines (under ++ rest))).1.flatten = under ∧
    (groupByHeader (lines (under ++ rest))).2 = groups
  whole : groups = [] → rest = []

/-- A text that begins with a block is the header line of the block, the lines under it and the text
from the next header line on. -/
theorem exists_heads {text line : List Char} {under : List (List Char)}
    {groups : List (List Char × List (List Char))}
    (grouped : groupByHeader (lines text) = ([], (line, under) :: groups)) :
    ∃ content feed rest, text = content ++ feed ++ (under.flatten ++ rest) ∧ line = content ++ feed ∧
      Heads content feed under.flatten rest groups ∧ groupByHeader (lines rest) = ([], groups) := by
  cases found : lines text with
  | nil =>
    rw [found] at grouped
    cases grouped
  | cons first others =>
    rw [found, groupByHeader_cons] at grouped
    split at grouped
    next headed =>
      obtain ⟨content, feed, tail, noFeed, rfl, rfl, rfl, ends⟩ := exists_firstLine found
      obtain ⟨rest, whole, following⟩ := exists_headed tail
      cases grouped
      generalize above : (groupByHeader (lines tail)).1 = body at whole
      generalize later : (groupByHeader (lines tail)).2 = groups at following
      subst whole
      -- Without another header line the body runs to the end of the text.
      have further : groups = [] → rest = [] := by
        rintro rfl
        exact eq_flatMap_groupText following
      exact ⟨content, feed, rest, rfl, rfl,
        ⟨noFeed, ends, headed, ⟨congrArg List.flatten above, later⟩, further⟩, following⟩
    · cases grouped

/-! ## Header lines by their place -/

/-- A header line starts at the byte position: complete lines end there, and after spaces and tabs
the marker follows. -/
def HeaderAt (text : List Char) (position : Nat) : Prop :=
  ∃ before after, text = before ++ after ∧ EndsLine before ∧ position = byteLength before ∧
    isHeaderLine after = true

theorem not_headerAt_nil (position : Nat) : ¬HeaderAt [] position := by
  rintro ⟨before, after, whole, _, _, marked⟩
  obtain ⟨_, rfl⟩ := List.append_eq_nil_iff.mp whole.symm
  cases marked

theorem HeaderAt.lt {text : List Char} {position : Nat} (found : HeaderAt text position) :
    position < byteLength text := by
  obtain ⟨before, after, rfl, _, rfl, marked⟩ := found
  have nonempty : after ≠ [] := by
    rintro rfl
    cases marked
  rw [byteLength_append]
  exact Nat.lt_add_of_pos_right (byteLength_pos nonempty)

/-- A header line of a part that follows complete lines is one of the whole. -/
theorem HeaderAt.within {first part : List Char} {position : Nat} (found : HeaderAt part position)
    (ends : EndsLine first) (last : List Char) :
    HeaderAt (first ++ part ++ last) (byteLength first + position) := by
  obtain ⟨before, after, rfl, beforeEnds, rfl, marked⟩ := found
  refine ⟨first ++ before, after ++ last, by simp, ends.join beforeEnds, by simp, ?_⟩
  obtain ⟨others, whole⟩ := isHeaderLine_iff.mp marked
  unfold isHeaderLine at marked ⊢
  rw [List.isPrefixOf_iff_prefix] at marked ⊢
  have visible : after.dropWhile isIndent ≠ [] := fun none => by
    rw [none] at marked
    exact absurd (List.prefix_nil.mp marked) (by decide)
  rw [List.dropWhile_append, if_neg (by simpa using visible)]
  exact marked.trans (List.prefix_append _ _)

theorem isHeaderLine_firstLine {feed rest : List Char} (content : List Char)
    (ends : feed = ['\n'] ∨ feed = [] ∧ rest = []) :
    isHeaderLine (content ++ feed ++ rest) = isHeaderLine (content ++ feed) := by
  rcases ends with rfl | ⟨rfl, rfl⟩
  · rw [List.append_assoc, List.singleton_append, isHeaderLine_feed, isHeaderLine_feed]
  · rw [List.append_nil]

/-- A header line is the first line of a text or a header line of what follows. -/
theorem headerAt_firstLine {content feed rest : List Char} (noFeed : '\n' ∉ content)
    (ends : feed = ['\n'] ∨ feed = [] ∧ rest = []) {position : Nat} :
    HeaderAt (content ++ feed ++ rest) position ↔
      (position = 0 ∧ isHeaderLine (content ++ feed) = true) ∨
        ∃ later, HeaderAt rest later ∧ position = byteLength (content ++ feed) + later := by
  have same := isHeaderLine_firstLine content ends
  constructor
  · rintro ⟨before, after, whole, beforeEnds, rfl, marked⟩
    rcases beforeEnds with rfl | feedLast
    · rw [List.nil_append] at whole
      exact Or.inl ⟨rfl, by rwa [← same, whole]⟩
    · -- the complete lines before the header line hold the first line
      rw [List.append_assoc] at whole
      rcases List.append_eq_append_iff.mp whole with ⟨between, rfl, following⟩ | ⟨between, rfl, _⟩
      · have nonempty : between ≠ [] := by
          rintro rfl
          rw [List.append_nil] at feedLast
          exact noFeed (List.mem_of_getLast? feedLast)
        rcases ends with rfl | ⟨rfl, rfl⟩
        · obtain ⟨c, others, rfl⟩ := List.exists_cons_of_ne_nil nonempty
          obtain ⟨rfl, rfl⟩ := List.cons.inj following
          refine Or.inr ⟨byteLength others, ⟨others, after, rfl, ?_, rfl, marked⟩, by simp; omega⟩
          by_cases none : others = []
          · exact Or.inl none
          · right
            rwa [List.getLast?_append_cons, List.getLast?_cons_of_ne_nil none] at feedLast
        · exact absurd (List.append_eq_nil_iff.mp following.symm).1 nonempty
      · exact absurd (List.mem_append_left between (List.mem_of_getLast? feedLast)) noFeed
  · rintro (⟨rfl, marked⟩ | ⟨later, found, rfl⟩)
    · exact ⟨[], _, rfl, Or.inl rfl, rfl, same.trans marked⟩
    · rcases ends with rfl | ⟨rfl, rfl⟩
      · have complete : EndsLine (content ++ ['\n']) := Or.inr (by simp)
        have whole := found.within complete []
        rwa [List.append_nil] at whole
      · exact absurd found (not_headerAt_nil later)

/-- The header lines found line by line are those at the places of header lines. -/
theorem mem_headerSites {source offset position : Nat} {text : List Char} :
    position ∈ (headerSites source offset (lines text)).map (·.line.start) ↔
      ∃ inner, HeaderAt text inner ∧ position = offset + inner := by
  -- both sides look at the first line and then at the rest
  generalize listed : lines text = pieces
  induction pieces generalizing offset text with
  | nil =>
    have none := lines_flatten text
    rw [listed] at none
    subst none
    simp [headerSites, not_headerAt_nil]
  | cons line others ih =>
    obtain ⟨content, feed, rest, noFeed, rfl, rfl, rfl, ends⟩ := exists_firstLine listed
    have later := @ih (offset + byteLength (content ++ feed)) rest rfl
    simp only [headerAt_firstLine noFeed ends]
    unfold headerSites
    dsimp only
    by_cases headed : isHeaderLine (content ++ feed) = true
    · rw [if_pos headed, List.map_cons, List.mem_cons, later]
      constructor
      · rintro (rfl | ⟨inner, found, rfl⟩)
        · exact ⟨0, Or.inl ⟨rfl, headed⟩, rfl⟩
        · exact ⟨_, Or.inr ⟨inner, found, rfl⟩, Nat.add_assoc _ _ _⟩
      · rintro ⟨_, ⟨rfl, _⟩ | ⟨inner, found, rfl⟩, rfl⟩
        · exact Or.inl rfl
        · exact Or.inr ⟨inner, found, (Nat.add_assoc _ _ _).symm⟩
    · rw [if_neg headed, later]
      constructor
      · rintro ⟨inner, found, rfl⟩
        exact ⟨_, Or.inr ⟨inner, found, rfl⟩, Nat.add_assoc _ _ _⟩
      · rintro ⟨_, ⟨rfl, impossible⟩ | ⟨inner, found, rfl⟩, rfl⟩
        · exact absurd impossible headed
        · exact ⟨inner, found, (Nat.add_assoc _ _ _).symm⟩

/-! ## The parts of a block -/

/-- The block is its header line, the end of that line and its body, each at its place in the text.
The header line ends with its line feed, or with the text, and a carriage return before that end
belongs to neither the line nor the header. -/
structure Block.Composed (text : List Char) (block : Block) : Prop where
  /-- The whole block, which is its header line and its body. -/
  whole : block.span.Holds 0 text (block.line ++ block.body)
  /-- The header line without its end, which is blanks, the marker and the header. -/
  content : block.lineSpan.Holds 0 text (block.indent ++ headerMarker ++ block.header)
  blank : ∀ c ∈ block.indent, c = ' ' ∨ c = '\t'
  header : block.headerSpan.Holds 0 text block.header
  body : block.bodySpan.Holds 0 text block.body
  /-- The end of the header line. -/
  ending : ∃ back feed, block.line = block.indent ++ headerMarker ++ block.header ++ back ++ feed ∧
    '\n' ∉ block.header ∧ (back = ['\r'] ∨ back = [] ∧ block.header.getLast? ≠ some '\r') ∧
    (feed = ['\n'] ∨ feed = [] ∧ block.body = [] ∧ block.span.stop = byteLength text) ∧
    block.bodySpan.start = block.lineSpan.stop + byteLength (back ++ feed)
  /-- The line begins with the block, the header ends with the line and the body with the block. -/
  nested : block.lineSpan.start = block.span.start ∧ block.headerSpan.stop = block.lineSpan.stop ∧
    block.bodySpan.stop = block.span.stop

/-- A line without its line feed is its content and at most one carriage return. -/
theorem lineContent_return {content feed : List Char} (noFeed : '\n' ∉ content)
    (ends : feed = ['\n'] ∨ feed = []) : ∃ back, content = lineContent (content ++ feed) ++ back ∧
      (back = ['\r'] ∨ back = [] ∧ (lineContent (content ++ feed)).getLast? ≠ some '\r') := by
  have last : content.getLast? ≠ some '\n' := fun found => noFeed (List.mem_of_getLast? found)
  have fed : withoutLineFeed (content ++ feed) = content := by
    rcases ends with rfl | rfl
    · simp [withoutLineFeed]
    · simp [withoutLineFeed, last]
  unfold lineContent
  rw [fed]
  dsimp only
  split
  next found =>
    exact ⟨['\r'], (List.dropLast_append_getLast? _ (eq_of_beq found)).symm, Or.inl rfl⟩
  next other => exact ⟨[], by simp, Or.inr ⟨rfl, by simpa using other⟩⟩

/-- What is known of the block from the lines it was made of. -/
theorem exists_parts (before : List Char) {groups : List (List Char × List (List Char))}
    {text : List Char} (grouped : groupByHeader (lines text) = ([], groups)) {block : Block}
    (member : block ∈ Layout.placeBlocks (byteLength before) groups) :
    ∃ first content feed last, before ++ text = first ++ (content ++ feed ++ block.body) ++ last ∧
      block.start = byteLength first ∧ block.line = content ++ feed ∧ '\n' ∉ content ∧
      (feed = ['\n'] ∨ feed = [] ∧ block.body = [] ∧ last = []) := by
  induction groups generalizing before text with
  | nil => cases member
  | cons group groups ih =>
    obtain ⟨line, lines⟩ := group
    obtain ⟨content, feed, rest, rfl, rfl, heads, following⟩ := exists_heads grouped
    rw [Layout.placeBlocks] at member
    -- The first block is at the start of the text; the others are placed after its body.
    rcases List.mem_cons.mp member with rfl | member
    · refine ⟨before, content, feed, rest, by simp, rfl, rfl, heads.noFeed, ?_⟩
      rcases heads.ends with feedLast | ⟨noFeedLast, ended⟩
      · exact Or.inl feedLast
      · obtain ⟨body, last⟩ := List.append_eq_nil_iff.mp ended
        exact Or.inr ⟨noFeedLast, body, last⟩
    · have placed := ih (before ++ (content ++ feed) ++ lines.flatten) following (by
        simpa [Block.span, Block.bodySpan, Nat.add_assoc] using member)
      rwa [List.append_assoc (before ++ (content ++ feed)), List.append_assoc before] at placed

/-- Blocks are composed of their parts. -/
theorem Block.composed {text first content feed last : List Char} {block : Block}
    (headed : isHeaderLine block.line = true)
    (whole : text = first ++ (content ++ feed ++ block.body) ++ last)
    (start : block.start = byteLength first) (line : block.line = content ++ feed)
    (noFeed : '\n' ∉ content)
    (ends : feed = ['\n'] ∨ feed = [] ∧ block.body = [] ∧ last = []) : block.Composed text := by
  obtain ⟨back, returned, back_⟩ := lineContent_return noFeed (ends.imp_right And.left)
  rw [← line] at returned back_
  change content = block.content ++ back at returned
  change back = ['\r'] ∨ back = [] ∧ block.content.getLast? ≠ some '\r' at back_
  have parts := Block.content_eq headed
  -- A header that ended in a carriage return would make the content end in one.
  have lastOfHeader : block.header.getLast? = some '\r' → block.content.getLast? = some '\r' := by
    intro found
    rw [parts, List.getLast?_append, found]
    rfl
  have size : byteLength block.content =
      byteLength block.indent + byteLength headerMarker + byteLength block.header := by
    rw [parts, byteLength_append, byteLength_append]
  have lineSize : byteLength block.line =
      byteLength block.content + byteLength (back ++ feed) := by
    rw [line, returned, List.append_assoc, byteLength_append]
  rw [returned] at whole
  have wholeSize := congrArg byteLength whole
  simp only [byteLength_append] at wholeSize lineSize
  have toEnd : block.body = [] → feed = [] → last = [] → block.span.stop = byteLength text := by
    rintro bodyless rfl rfl
    simp only [Block.span, Block.bodySpan, start, bodyless, byteLength_nil] at wholeSize lineSize ⊢
    omega
  exact {
    whole := ⟨first, last, by simp [whole, line, returned],
      by simp [Block.span, Block.bodySpan, start, Nat.add_assoc]⟩
    content := ⟨first, back ++ feed ++ block.body ++ last, by simp [whole, parts],
      by simp [Block.lineSpan, start, size, Nat.add_assoc]⟩
    blank := fun c member => by
      have indent : isIndent c = true := List.all_eq_true.mp List.all_takeWhile c member
      simpa [isIndent] using indent
    header := ⟨first ++ block.indent ++ headerMarker, back ++ feed ++ block.body ++ last,
      by simp [whole, parts],
      by simp [Block.headerSpan, Block.lineSpan, start, size, Nat.add_assoc]⟩
    body := ⟨first ++ block.content ++ back ++ feed, last, by simp [whole],
      by simp [Block.bodySpan, start, line, returned, Nat.add_assoc]⟩
    ending := by
      refine ⟨back, feed, by rw [line, returned, parts], fun member => noFeed ?_, ?_, ?_, ?_⟩
      · rw [returned, parts]
        simp [member]
      · exact back_.imp_right (And.imp_right fun other found => other (lastOfHeader found))
      · exact ends.imp_right fun ended =>
          ⟨ended.1, ended.2.1, toEnd ended.2.1 ended.1 ended.2.2⟩
      · simp [Block.bodySpan, Block.lineSpan, lineSize, Nat.add_assoc]
    nested := ⟨rfl, rfl, rfl⟩ }

/-! ## The whole text -/

namespace Layout

theorem placeBlocks_tile (start : Nat) (groups : List (List Char × List (List Char))) :
    Span.Tile start (start + byteLength (groups.flatMap groupText))
      ((placeBlocks start groups).map Block.span) := by
  induction groups generalizing start with
  | nil => rfl
  | cons group groups ih =>
    have rest := ih (start + byteLength group.1 + byteLength group.2.flatten)
    have stop : start + byteLength group.1 + byteLength group.2.flatten +
        byteLength (groups.flatMap groupText) =
        start + byteLength ((group :: groups).flatMap groupText) := by
      simp only [List.flatMap_cons, groupText, byteLength_append]
      omega
    rw [stop] at rest
    refine ⟨rfl, ?_, rest⟩
    simp only [Block.span, Block.bodySpan]
    omega

/-- The preamble and the blocks tile the text. -/
theorem ofText_tile (text : List Char) : Span.Tile 0 (byteLength text)
    ((ofText text).preambleSpan :: (ofText text).blocks.map Block.span) := by
  have tile := placeBlocks_tile (byteLength (groupByHeader (lines text)).1.flatten)
    (groupByHeader (lines text)).2
  rw [← byteLength_append, groupByHeader_flatten, lines_flatten] at tile
  exact ⟨rfl, Nat.zero_le _, tile⟩

/-- Blocks begin where header lines do. -/
theorem mem_starts {text : List Char} {position : Nat} :
    position ∈ (ofText text).blocks.map Block.start ↔ HeaderAt text position := by
  have sites := ofText_sites 0 text
  have starts : (ofText text).blocks.map Block.start =
      (headerSites 0 0 (lines text)).map (·.line.start) := by
    rw [← sites, List.map_map]
    rfl
  rw [starts, mem_headerSites]
  simp

/-- Every block is composed of its parts. -/
theorem block_composed {text : List Char} {block : Block} (member : block ∈ (ofText text).blocks) :
    block.Composed text := by
  obtain ⟨rest, whole, grouped⟩ := exists_headed text
  obtain ⟨first, content, feed, last, parts, start, line, noFeed, ends⟩ :=
    exists_parts (groupByHeader (lines text)).1.flatten grouped member
  exact Block.composed (block_headed member) (whole.trans parts) start line noFeed ends

theorem block_nonempty {text : List Char} {block : Block} (member : block ∈ (ofText text).blocks) :
    block.start < block.span.stop := by
  have nonempty : block.line ≠ [] := fun none => by
    have headed := block_headed member
    rw [none] at headed
    cases headed
  have positive := byteLength_pos nonempty
  simp only [Block.span, Block.bodySpan]
  omega

/-- No header line stands in the preamble: it would begin a block there. -/
theorem preamble_without_header {text : List Char} (position : Nat) :
    ¬HeaderAt (ofText text).preamble position := by
  intro found
  obtain ⟨rest, whole, _⟩ := exists_headed text
  have start : EndsLine [] := Or.inl rfl
  have inText := found.within start rest
  rw [List.nil_append, byteLength_nil, Nat.zero_add] at inText
  change text = (ofText text).preamble ++ rest at whole
  rw [← whole] at inText
  obtain ⟨block, member, rfl⟩ := List.mem_map.mp (mem_starts.mpr inText)
  have later : byteLength (ofText text).preamble ≤ block.start :=
    (ofText_tile text).2.2.after _ (List.mem_map_of_mem member)
  exact Nat.not_lt.mpr later found.lt

/-- Nor does one stand in the body of a block. -/
theorem body_without_header {text : List Char} {block : Block}
    (member : block ∈ (ofText text).blocks) (position : Nat) : ¬HeaderAt block.body position := by
  intro found
  obtain ⟨rest, preamble, grouped⟩ := exists_headed text
  obtain ⟨first, content, feed, last, parts, start, line, _, ends⟩ :=
    exists_parts (groupByHeader (lines text)).1.flatten grouped member
  rcases ends with rfl | ⟨_, bodyless, _⟩
  · have complete : EndsLine (first ++ content ++ ['\n']) := Or.inr (by simp)
    have inText := found.within complete last
    rw [show first ++ content ++ ['\n'] ++ block.body ++ last = text by
      rw [preamble, parts]; simp] at inText
    obtain ⟨other, listed, begins⟩ := List.mem_map.mp (mem_starts.mpr inText)
    have inside := found.lt
    have nonempty := block_nonempty listed
    have apart := (ofText_tile text).2.2.same_or_apart (List.mem_map_of_mem member)
      (List.mem_map_of_mem (f := Block.span) listed)
    have size : byteLength block.line = byteLength content + byteLength ['\n'] := by
      rw [line, byteLength_append]
    have positive : 0 < byteLength ['\n'] := by decide
    simp only [byteLength_append] at begins
    -- the other block would begin within this one
    have here : block.start < other.start ∧ other.start < block.span.stop := by
      simp only [Block.span, Block.bodySpan]
      omega
    rcases apart with same | before | after
    · have start : block.start = other.start := congrArg Span.start same
      omega
    · exact absurd here.2 (Nat.not_lt.mpr before)
    · exact absurd here.1 (by have : other.span.stop ≤ block.start := after; omega)
  · rw [bodyless] at found
    exact not_headerAt_nil position found

/-- The preamble and the blocks tile the text. Blocks begin exactly at the header lines, each at
its own; none stands in the preamble or in a body. A block is composed of its header line, the end of
that line and its body. -/
theorem ofText_partition (text : List Char) :
    Span.Tile 0 (byteLength text)
        ((ofText text).preambleSpan :: (ofText text).blocks.map Block.span) ∧
      (ofText text).preambleSpan.Holds 0 text (ofText text).preamble ∧
      ((ofText text).blocks.map Block.start).Pairwise (· < ·) ∧
      (∀ position, position ∈ (ofText text).blocks.map Block.start ↔ HeaderAt text position) ∧
      (∀ position, ¬HeaderAt (ofText text).preamble position) ∧
      ∀ block ∈ (ofText text).blocks,
        (∀ position, ¬HeaderAt block.body position) ∧ block.Composed text := by
  have tile := ofText_tile text
  refine ⟨tile, ?_, ?_, fun _ => mem_starts, preamble_without_header, fun block member =>
    ⟨body_without_header member, block_composed member⟩⟩
  · obtain ⟨rest, whole, _⟩ := exists_headed text
    exact ⟨[], rest, whole, by simp [preambleSpan]⟩
  · have apart := List.pairwise_map.mp tile.2.2.apart
    refine List.pairwise_map.mpr (apart.imp_of_mem fun first _ before => ?_)
    exact Nat.lt_of_lt_of_le (block_nonempty first) before

end Layout

end AnnotatedSql
