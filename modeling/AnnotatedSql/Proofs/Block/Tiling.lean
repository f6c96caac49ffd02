import AnnotatedSql.Block

/-!
# Lines and blocks make up the module

The lines of a text are the text, and so are the preamble and the blocks of a module. A text that
begins with a header line adds its blocks to whatever complete lines stand before it.
-/

namespace AnnotatedSql

/-- The text is made of complete lines. -/
def EndsLine (text : List Char) : Prop := text = [] ∨ text.getLast? = some '\n'

/-- The first line of the text is a header line. -/
def StartsBlock (text : List Char) : Prop :=
  ∃ line rest, lines text = line :: rest ∧ isHeaderLine line = true

theorem EndsLine.append {a b : List Char} (ends : EndsLine b) (nonempty : b ≠ []) :
    EndsLine (a ++ b) := by
  right
  rw [List.getLast?_append, ends.resolve_left nonempty]
  rfl

theorem EndsLine.join {a b : List Char} (first : EndsLine a) (second : EndsLine b) :
    EndsLine (a ++ b) := by
  by_cases none : b = []
  · rwa [none, List.append_nil]
  · exact second.append none

theorem lines_cons (c : Char) (text : List Char) :
    lines (c :: text) = if c == '\n' then ['\n'] :: lines text
      else match lines text with
        | [] => [[c]]
        | line :: rest => (c :: line) :: rest := rfl

theorem lines_flatten (text : List Char) : (lines text).flatten = text := by
  induction text with
  | nil => rfl
  | cons c text ih =>
    unfold lines
    split
    next feed =>
      rw [List.flatten_cons, ih, eq_of_beq feed]
      rfl
    · split
      next none =>
        rw [none] at ih
        rw [← ih]
        rfl
      next line rest some =>
        rw [some] at ih
        rw [← ih]
        rfl

theorem lines_ne_nil {text : List Char} (nonempty : text ≠ []) : lines text ≠ [] := by
  intro none
  have flat := lines_flatten text
  rw [none] at flat
  exact nonempty flat.symm

/-- Complete lines stay as they are whatever text follows them. -/
theorem lines_append {a b : List Char} (ends : EndsLine a) :
    lines (a ++ b) = lines a ++ lines b := by
  induction a with
  | nil => rfl
  | cons c a ih =>
    by_cases last : a = []
    · subst last
      have feed : c = '\n' := by simpa [EndsLine] using ends
      subst feed
      rfl
    · have restEnds : EndsLine a := by
        right
        simpa [EndsLine, List.getLast?_cons_of_ne_nil last] using ends
      rw [List.cons_append, lines_cons, lines_cons c a, ih restEnds]
      split
      · rfl
      · cases found : lines a with
        | nil => exact absurd found (lines_ne_nil last)
        | cons line rest => rfl

/-! ## Groups -/

/-- The text of a header line and the lines under it. -/
def groupText (group : List Char × List (List Char)) : List Char := group.1 ++ group.2.flatten

theorem groupByHeader_cons (line : List Char) (rest : List (List Char)) :
    groupByHeader (line :: rest) =
      if isHeaderLine line then ([], (line, (groupByHeader rest).1) :: (groupByHeader rest).2)
      else (line :: (groupByHeader rest).1, (groupByHeader rest).2) := rfl

theorem groupByHeader_flatten (pieces : List (List Char)) :
    (groupByHeader pieces).1.flatten ++ (groupByHeader pieces).2.flatMap groupText =
      pieces.flatten := by
  induction pieces with
  | nil => rfl
  | cons line rest ih =>
    rw [groupByHeader_cons]
    split
    · simp [groupText, ← ih]
    · simp [← ih]

/-- Lines that begin with a header line add their groups. -/
theorem groupByHeader_append {others : List (List Char)}
    (starts : (groupByHeader others).1 = []) (pieces : List (List Char)) :
    groupByHeader (pieces ++ others) =
      ((groupByHeader pieces).1, (groupByHeader pieces).2 ++ (groupByHeader others).2) := by
  induction pieces with
  | nil => exact Prod.ext starts rfl
  | cons line rest ih =>
    rw [List.cons_append, groupByHeader_cons, groupByHeader_cons, ih]
    split
    · rfl
    · rfl

theorem StartsBlock.noPreamble {text : List Char} (starts : StartsBlock text) :
    (groupByHeader (lines text)).1 = [] := by
  obtain ⟨line, rest, found, header⟩ := starts
  rw [found, groupByHeader_cons, if_pos header]

/-! ## Blocks -/

/-- The block in a text that begins `offset` bytes later. -/
def Block.shift (offset : Nat) (block : Block) : Block :=
  { block with start := block.start + offset }

namespace Layout

theorem placeBlocks_shift (offset start : Nat) (groups : List (List Char × List (List Char))) :
    placeBlocks (start + offset) groups = (placeBlocks start groups).map (Block.shift offset) := by
  induction groups generalizing start with
  | nil => rfl
  | cons group rest ih =>
    rw [placeBlocks, placeBlocks, List.map_cons, ← ih]
    have stop : start + offset + byteLength group.1 + byteLength group.2.flatten =
        start + byteLength group.1 + byteLength group.2.flatten + offset := by
      omega
    exact congrArg (Block.shift offset ⟨start, group.1, group.2.flatten⟩ :: ·)
      (congrArg (placeBlocks · rest) stop)

theorem placeBlocks_append (start : Nat) (groups others : List (List Char × List (List Char))) :
    placeBlocks start (groups ++ others) = placeBlocks start groups ++
      placeBlocks (start + byteLength (groups.flatMap groupText)) others := by
  induction groups generalizing start with
  | nil => rfl
  | cons group rest ih =>
    rw [List.cons_append, placeBlocks, placeBlocks, ih]
    have stop : start + byteLength group.1 + byteLength group.2.flatten +
        byteLength (rest.flatMap groupText) =
        start + byteLength ((group :: rest).flatMap groupText) := by
      simp only [List.flatMap_cons, groupText, byteLength_append]
      omega
    rw [← stop]
    rfl

theorem ofText_preamble {text : List Char} (starts : StartsBlock text) :
    (ofText text).preamble = [] := by
  have none := congrArg List.flatten starts.noPreamble
  exact none

/-- A text that begins with a header line adds its blocks to complete lines before it. -/
theorem ofText_append {a b : List Char} (ends : EndsLine a) (starts : StartsBlock b) :
    ofText (a ++ b) = ⟨(ofText a).preamble,
      (ofText a).blocks ++ (ofText b).blocks.map (Block.shift (byteLength a))⟩ := by
  have grouped := groupByHeader_append starts.noPreamble (lines a)
  have tiled : byteLength (groupByHeader (lines a)).1.flatten +
      byteLength ((groupByHeader (lines a)).2.flatMap groupText) = byteLength a := by
    rw [← byteLength_append, groupByHeader_flatten, lines_flatten]
  simp only [ofText, lines_append ends, grouped, starts.noPreamble, placeBlocks_append, tiled,
    List.flatten_nil, byteLength_nil]
  rw [← placeBlocks_shift, Nat.zero_add]

end Layout

end AnnotatedSql
