import AnnotatedSql.Token.Pattern

/-!
# Membership in patterns

What belongs to a pattern, constructor by constructor, and that taking characters off decides it: a
text belongs to a pattern exactly when the pattern that is left after all its characters accepts the
empty text.
-/

namespace AnnotatedSql

namespace Pattern

variable {p q : Pattern} {c : Char} {a t : List Char}

@[simp] theorem matches_never : ¬Matches never t := by
  intro impossible
  cases impossible

@[simp] theorem matches_empty : Matches empty t ↔ t = [] := by
  constructor
  · intro matched
    cases matched
    rfl
  · rintro rfl
    exact .empty

@[simp] theorem matches_char {accepts : Char → Bool} :
    Matches (char accepts) t ↔ ∃ c, accepts c = true ∧ t = [c] := by
  constructor
  · intro matched
    cases matched with
    | char accepted => exact ⟨_, accepted, rfl⟩
  · rintro ⟨c, accepted, rfl⟩
    exact .char accepted

theorem matches_seq : Matches (seq p q) t ↔ ∃ a b, t = a ++ b ∧ Matches p a ∧ Matches q b := by
  constructor
  · intro matched
    cases matched with
    | seq first second => exact ⟨_, _, rfl, first, second⟩
  · rintro ⟨a, b, rfl, first, second⟩
    exact .seq first second

@[simp] theorem matches_alt : Matches (alt p q) t ↔ Matches p t ∨ Matches q t := by
  constructor
  · intro matched
    cases matched with
    | altLeft left => exact Or.inl left
    | altRight right => exact Or.inr right
  · rintro (left | right)
    · exact .altLeft left
    · exact .altRight right

/-- A repetition is empty or begins with an item that is not. -/
theorem matches_star_cons : Matches (star p) (c :: t) ↔
    ∃ a b, t = a ++ b ∧ Matches p (c :: a) ∧ Matches (star p) b := by
  constructor
  · intro matched
    generalize pattern : star p = r at matched
    generalize whole : c :: t = text at matched
    induction matched with
    | starNil => cases whole
    | @starCons _ first rest item others _ ih =>
      cases pattern
      cases first with
      | nil => exact ih rfl whole
      | cons d first =>
        cases whole
        exact ⟨first, rest, rfl, item, others⟩
    | _ => cases pattern
  · rintro ⟨a, b, rfl, first, rest⟩
    exact .starCons first rest

theorem matches_seq_cons : Matches (seq p q) (c :: t) ↔
    (∃ a b, t = a ++ b ∧ Matches p (c :: a) ∧ Matches q b) ∨
      Matches p [] ∧ Matches q (c :: t) := by
  rw [matches_seq]
  constructor
  · rintro ⟨a, b, whole, first, second⟩
    cases a with
    | nil =>
      rw [List.nil_append] at whole
      exact Or.inr ⟨first, whole ▸ second⟩
    | cons d a =>
      cases whole
      exact Or.inl ⟨a, b, rfl, first, second⟩
  · rintro (⟨a, b, rfl, first, second⟩ | ⟨first, second⟩)
    · exact ⟨c :: a, b, rfl, first, second⟩
    · exact ⟨[], c :: t, rfl, first, second⟩

@[simp] theorem matches_sequence : Matches (sequence p q) t ↔ Matches (seq p q) t := by
  unfold sequence
  split
  · simp [matches_seq]
  · simp [matches_seq]
  · rw [matches_seq]
    constructor
    · exact fun second => ⟨[], t, rfl, .empty, second⟩
    · rintro ⟨a, b, rfl, first, second⟩
      rw [matches_empty.mp first]
      exact second
  · rfl

@[simp] theorem matches_either : Matches (either p q) t ↔ Matches p t ∨ Matches q t := by
  unfold either
  split <;> simp

theorem nullable_iff : p.nullable = true ↔ Matches p [] := by
  induction p with
  | never => simp [nullable]
  | empty => simp [nullable]
  | char accepts => simp [nullable]
  | seq p q first second =>
    simp only [nullable, Bool.and_eq_true, first, second, matches_seq]
    constructor
    · rintro ⟨first, second⟩
      exact ⟨[], [], rfl, first, second⟩
    · rintro ⟨a, b, whole, first, second⟩
      obtain ⟨rfl, rfl⟩ := List.append_eq_nil_iff.mp whole.symm
      exact ⟨first, second⟩
  | alt p q left right => simp [nullable, left, right]
  | star p _ => exact ⟨fun _ => .starNil, fun _ => rfl⟩

/-- A text belongs to the derivative exactly when the text with the character before it belongs to
the pattern. -/
theorem matches_derive : Matches (p.derive c) t ↔ Matches p (c :: t) := by
  induction p generalizing t with
  | never => simp [derive]
  | empty => simp [derive]
  | char accepts =>
    unfold derive
    rw [matches_char]
    split
    next accepted =>
      rw [matches_empty]
      constructor
      · rintro rfl
        exact ⟨c, accepted, rfl⟩
      · rintro ⟨d, _, same⟩
        cases same
        rfl
    next refused =>
      constructor
      · exact fun impossible => absurd impossible matches_never
      · rintro ⟨d, accepted, same⟩
        cases same
        exact absurd accepted refused
  | seq p q first second =>
    rw [matches_seq_cons, ← nullable_iff]
    unfold derive
    split
    next nullable => simp [matches_seq, first, second, nullable]
    next nullable => simp [matches_seq, first, nullable]
  | alt p q left right => simp [derive, left, right]
  | star p item =>
    rw [matches_star_cons, derive, matches_sequence, matches_seq]
    simp only [item]

/-- What remains of a pattern after a text. -/
def deriveBy (p : Pattern) (text : List Char) : Pattern := text.foldl (fun p c => p.derive c) p

@[simp] theorem deriveBy_cons : p.deriveBy (c :: t) = (p.derive c).deriveBy t := rfl

theorem matches_deriveBy : Matches (p.deriveBy a) t ↔ Matches p (a ++ t) := by
  induction a generalizing p with
  | nil => rfl
  | cons c a ih => rw [deriveBy_cons, ih, matches_derive, List.cons_append]

/-- Whether the text belongs to the pattern. -/
def accepts (p : Pattern) (text : List Char) : Bool := (p.deriveBy text).nullable

theorem accepts_iff : p.accepts t = true ↔ Matches p t := by
  rw [accepts, nullable_iff, matches_deriveBy, List.append_nil]

end Pattern

end AnnotatedSql
