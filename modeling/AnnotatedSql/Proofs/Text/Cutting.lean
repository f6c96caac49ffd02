import AnnotatedSql.Text.Span

/-!
# Pieces of a text

A position may fall between two characters of a text or within one. A span whose ends both fall
between characters, the first not after the second, holds a piece of the text. Spans that follow one
another without a gap tile what they cover.
-/

namespace AnnotatedSql

theorem byteLength_pos {text : List Char} (nonempty : text ≠ []) : 0 < byteLength text := by
  obtain ⟨c, text, rfl⟩ := List.exists_cons_of_ne_nil nonempty
  rw [byteLength_cons]
  exact Nat.lt_of_lt_of_le c.utf8Size_pos (Nat.le_add_right _ _)

theorem dropBytes_append (before after : List Char) :
    dropBytes (byteLength before) (before ++ after) = after := by
  induction before with
  | nil => cases after <;> rfl
  | cons c before ih =>
    obtain ⟨size, positive⟩ := Nat.exists_eq_add_one.mpr c.utf8Size_pos
    have count : byteLength (c :: before) = size + byteLength before + 1 := by
      rw [byteLength_cons, positive, Nat.add_right_comm]
    rw [count, List.cons_append, dropBytes, positive]
    rwa [show size + byteLength before + 1 - (size + 1) = byteLength before by omega]

theorem takeBytes_append (before after : List Char) :
    takeBytes (byteLength before) (before ++ after) = before := by
  induction before with
  | nil =>
    cases after with
    | nil => rfl
    | cons c after => exact if_neg (Nat.not_le.mpr c.utf8Size_pos)
  | cons c before ih =>
    rw [List.cons_append, takeBytes, byteLength_cons, if_pos (Nat.le_add_right _ _),
      Nat.add_sub_cancel_left, ih]

/-- The position falls between two characters of a text that begins at `base`, or at one of its
ends. -/
def Boundary (base : Nat) (text : List Char) (position : Nat) : Prop :=
  ∃ before after, text = before ++ after ∧ position = base + byteLength before

theorem Boundary.bounds {base position : Nat} {text : List Char}
    (boundary : Boundary base text position) :
    base ≤ position ∧ position ≤ base + byteLength text := by
  obtain ⟨before, after, rfl, rfl⟩ := boundary
  rw [byteLength_append]
  omega

/-- What is a boundary of a part is one of the whole. -/
theorem Boundary.within {base position : Nat} {first part last : List Char}
    (boundary : Boundary (base + byteLength first) part position) :
    Boundary base (first ++ part ++ last) position := by
  obtain ⟨before, after, rfl, rfl⟩ := boundary
  refine ⟨first ++ before, after ++ last, by simp, ?_⟩
  rw [byteLength_append, Nat.add_assoc]

/-- Of two boundaries the later one is a boundary of what follows the earlier one. -/
theorem Boundary.beyond {base : Nat} {first rest : List Char} {position : Nat}
    (boundary : Boundary base (first ++ rest) position)
    (later : base + byteLength first ≤ position) :
    Boundary (base + byteLength first) rest position := by
  obtain ⟨before, after, whole, rfl⟩ := boundary
  have longer : byteLength first ≤ byteLength before := by omega
  rcases List.append_eq_append_iff.mp whole with ⟨between, rfl, rfl⟩ | ⟨between, rfl, rfl⟩
  · refine ⟨between, after, rfl, ?_⟩
    rw [byteLength_append, Nat.add_assoc]
  · -- the earlier boundary is the later one, so nothing stands between them
    have none : between = [] := by
      rw [byteLength_append] at longer
      cases between with
      | nil => rfl
      | cons c between =>
        have := c.utf8Size_pos
        rw [byteLength_cons] at longer
        omega
    subst none
    exact ⟨[], rest, rfl, by simp⟩

namespace Span

variable {base : Nat} {text piece : List Char} {span a b : Span}

/-- The span holds the piece in a text that begins at `base`. -/
def Holds (base : Nat) (text : List Char) (span : Span) (piece : List Char) : Prop :=
  ∃ before after, text = before ++ piece ++ after ∧
    span = ⟨base + byteLength before, base + byteLength before + byteLength piece⟩

/-- The span holds some piece of a text that begins at `base`. -/
structure Cuts (base : Nat) (text : List Char) (span : Span) : Prop where
  ordered : span.start ≤ span.stop
  starts : Boundary base text span.start
  stops : Boundary base text span.stop

theorem Holds.cuts (holds : span.Holds base text piece) : span.Cuts base text := by
  obtain ⟨before, after, rfl, rfl⟩ := holds
  refine ⟨Nat.le_add_right _ _, ⟨before, piece ++ after, by simp, rfl⟩,
    ⟨before ++ piece, after, rfl, ?_⟩⟩
  rw [byteLength_append, Nat.add_assoc]

theorem Cuts.exists_piece (cuts : span.Cuts base text) : ∃ piece, span.Holds base text piece := by
  obtain ⟨before, rest, rfl, start⟩ := cuts.starts
  have ordered := cuts.ordered
  rw [start] at ordered
  obtain ⟨piece, after, rfl, stop⟩ := cuts.stops.beyond ordered
  refine ⟨piece, before, after, (List.append_assoc _ _ _).symm, ?_⟩
  rw [← stop, ← start]

/-- Two spans of a text are covered by one of the same text. -/
theorem Cuts.cover (left : a.Cuts base text) (right : b.Cuts base text) :
    (a.cover b).Cuts base text := by
  have leftOrdered := left.ordered
  have rightOrdered := right.ordered
  refine ⟨by simp only [Span.cover]; omega, ?_, ?_⟩
  · rcases Nat.le_total a.start b.start with first | second
    · rw [Span.cover, Nat.min_eq_left first]
      exact left.starts
    · rw [Span.cover, Nat.min_eq_right second]
      exact right.starts
  · rcases Nat.le_total a.stop b.stop with second | first
    · rw [Span.cover, Nat.max_eq_right second]
      exact right.stops
    · rw [Span.cover, Nat.max_eq_left first]
      exact left.stops

/-- A span of a part is a span of the whole. -/
theorem Cuts.within {first last : List Char} (cuts : span.Cuts (base + byteLength first) text) :
    span.Cuts base (first ++ text ++ last) :=
  ⟨cuts.ordered, cuts.starts.within, cuts.stops.within⟩

/-- What a span of a part holds it holds in the whole. -/
theorem Holds.within {first last : List Char}
    (holds : span.Holds (base + byteLength first) text piece) :
    span.Holds base (first ++ text ++ last) piece := by
  obtain ⟨before, after, rfl, rfl⟩ := holds
  refine ⟨first ++ before, after ++ last, by simp, ?_⟩
  rw [byteLength_append, Nat.add_assoc base]

theorem Holds.slice (holds : span.Holds base text piece) : span.slice base text = piece := by
  obtain ⟨before, after, rfl, rfl⟩ := holds
  simp only [Span.slice, Nat.add_sub_cancel_left, List.append_assoc, dropBytes_append,
    takeBytes_append]

/-- The spans follow one another without a gap from `start` to `stop`. -/
def Tile : Nat → Nat → List Span → Prop
  | start, stop, [] => start = stop
  | start, stop, span :: rest => span.start = start ∧ start ≤ span.stop ∧ Tile span.stop stop rest

theorem Tile.after {start stop : Nat} {spans : List Span} (tile : Tile start stop spans) :
    ∀ span ∈ spans, start ≤ span.start := by
  induction spans generalizing start with
  | nil => simp
  | cons first rest ih =>
    obtain ⟨begins, ordered, others⟩ := tile
    intro span member
    rcases List.mem_cons.mp member with rfl | member
    · exact Nat.le_of_eq begins.symm
    · exact Nat.le_trans ordered (ih others span member)

/-- Of two spans of a tiling the first ends before the second begins. -/
theorem Tile.apart {start stop : Nat} {spans : List Span} (tile : Tile start stop spans) :
    spans.Pairwise fun a b => a.stop ≤ b.start := by
  induction spans generalizing start with
  | nil => exact .nil
  | cons first rest ih =>
    obtain ⟨_, _, others⟩ := tile
    exact List.pairwise_cons.mpr ⟨others.after, ih others⟩

/-- Two spans of a tiling are the same or one ends before the other begins. -/
theorem Tile.same_or_apart {start stop : Nat} {spans : List Span} {a b : Span}
    (tile : Tile start stop spans) (first : a ∈ spans) (second : b ∈ spans) :
    a = b ∨ a.stop ≤ b.start ∨ b.stop ≤ a.start := by
  induction spans generalizing start with
  | nil => cases first
  | cons head rest ih =>
    obtain ⟨_, _, others⟩ := tile
    rcases List.mem_cons.mp first with rfl | firstLater
    · rcases List.mem_cons.mp second with rfl | secondLater
      · exact Or.inl rfl
      · exact Or.inr (Or.inl (others.after b secondLater))
    · rcases List.mem_cons.mp second with rfl | secondLater
      · exact Or.inr (Or.inr (others.after a firstLater))
      · exact ih others firstLater secondLater

end Span

end AnnotatedSql
