import AnnotatedSql.Proofs.Statement.Parentheses

/-!
# Splitting at commas

A range of tokens is split at the commas that no parenthesis within the range encloses. The items follow
one another from the beginning of the range, a comma after each but the last; an empty last item is
none, so that the range may also end with a comma. A parenthesis before the range does not matter, and
one within it that nothing ends hides all commas after it.
-/

namespace AnnotatedSql

/-- The ranges follow one another from `start` to `hi`, with one comma between each and the next. Nothing
follows a comma that is the last token. -/
inductive Statement.Separated (s : Statement) (hi : Nat) : Nat → List (Nat × Nat) → Prop
  | nothing : Separated s hi hi []
  | last {start : Nat} (more : start < hi) : Separated s hi start [(start, hi)]
  | comma {start cut : Nat} {others : List (Nat × Nat)} (begins : start ≤ cut) (inside : cut < hi)
      (comma : s.is cut .comma = true) (rest : Separated s hi (cut + 1) others) :
      Separated s hi start ((start, cut) :: others)

/-- Where ranges end before the end of the whole. -/
def separators (hi : Nat) (ranges : List (Nat × Nat)) : List Nat :=
  (ranges.map Prod.snd).filter (· < hi)

/-- Cuts within the range are the separators of what they make of it. -/
theorem separators_pieces {hi start : Nat} {cuts : List Nat} (inside : ∀ cut ∈ cuts, cut < hi) :
    separators hi (pieces hi start cuts) = cuts := by
  induction cuts generalizing start with
  | nil =>
    unfold pieces
    split <;> simp [separators]
  | cons cut cuts ih =>
    have rest := @ih (cut + 1) fun other member => inside other (List.mem_cons_of_mem _ member)
    have first := inside cut List.mem_cons_self
    unfold separators at rest ⊢
    rw [pieces, List.map_cons, List.filter_cons_of_pos (by simpa using first), rest]

namespace Statement

variable {s : Statement} {lo hi i : Nat}

/-- Ascending cuts at commas make separated ranges. -/
theorem separated_pieces {start : Nat} {cuts : List Nat} (bounded : start ≤ hi)
    (sorted : cuts.Pairwise (· < ·))
    (commas : ∀ cut ∈ cuts, start ≤ cut ∧ cut < hi ∧ s.is cut .comma = true) :
    s.Separated hi start (pieces hi start cuts) := by
  induction cuts generalizing start with
  | nil =>
    unfold pieces
    split
    next more => exact .last more
    next done =>
      obtain rfl : start = hi := by omega
      exact .nothing
  | cons cut cuts ih =>
    obtain ⟨begins, inside, comma⟩ := commas cut List.mem_cons_self
    obtain ⟨first, sorted⟩ := List.pairwise_cons.mp sorted
    refine .comma begins inside comma (ih inside sorted fun other member => ?_)
    exact ⟨first other member, (commas other (List.mem_cons_of_mem _ member)).2⟩

/-- A comma separates from a token on unless a parenthesis from there on encloses it. -/
theorem Bracketed.separatesFrom_iff (bracketed : s.Bracketed) : s.separatesFrom lo i = true ↔
    s.is i .comma = true ∧ ∀ opening, lo ≤ opening → ¬s.Encloses opening i := by
  unfold separatesFrom
  rw [Bool.and_eq_true]
  refine and_congr_right fun _ => ?_
  cases around : s.enclosing i with
  | none =>
    have outside := bracketed.enclosing_eq_none_iff.mp around
    simp [outside]
  | some innermost =>
    obtain ⟨encloses, greatest⟩ := bracketed.enclosing_eq_some_iff.mp around
    rw [Option.all_some, decide_eq_true_eq]
    constructor
    · intro before opening within inner
      have := greatest inner
      omega
    · intro outside
      by_contra within
      exact outside innermost (Nat.le_of_not_lt within) encloses

/-- A range is split at the commas that separate from its beginning on. -/
theorem Levelled.splitCommas_eq (levelled : s.Levelled) (lo hi : Nat) :
    s.splitCommas lo hi = pieces hi lo ((List.range' lo (hi - lo)).filter (s.separatesFrom lo)) :=
  levelled.itemsFrom_eq (Nat.le_refl _) (fun _ open_ => (level_mem open_).1) (by omega)

theorem mem_range_of_mem_commas {cut : Nat}
    (member : cut ∈ (List.range' lo (hi - lo)).filter (s.separatesFrom lo)) :
    lo ≤ cut ∧ cut < hi := by
  have := List.mem_range'_1.mp (List.mem_filter.mp member).1
  omega

end Statement

/-- The items of a range of tokens follow one another, one comma apart, and the commas between them are
those of the range that no parenthesis of the range encloses. -/
theorem Body.splitCommas_separated (body : Body) {lo hi : Nat} (range : lo ≤ hi) :
    body.statement.Separated hi lo (body.statement.splitCommas lo hi) ∧
      ∀ i, i ∈ separators hi (body.statement.splitCommas lo hi) ↔
        (lo ≤ i ∧ i < hi) ∧ body.statement.is i .comma = true ∧
          ∀ opening, lo ≤ opening → ¬body.statement.Encloses opening i := by
  have bracketed : body.statement.Bracketed := Statement.ofLexemes_bracketed _
  rw [bracketed.splitCommas_eq, separators_pieces fun cut member =>
    (Statement.mem_range_of_mem_commas member).2]
  constructor
  · have ascending : (List.range' lo (hi - lo)).Pairwise (· < ·) := List.pairwise_lt_range'
    refine Statement.separated_pieces range (ascending.filter _) fun cut member => ?_
    obtain ⟨atLeast, below⟩ := Statement.mem_range_of_mem_commas member
    have separates := (List.mem_filter.mp member).2
    exact ⟨atLeast, below, (bracketed.separatesFrom_iff.mp separates).1⟩
  · intro i
    rw [List.mem_filter, List.mem_range'_1, bracketed.separatesFrom_iff,
      show lo + (hi - lo) = hi by omega]

/-- Within a parenthesis that nothing ends, the commas of a call and those after another such
parenthesis do not separate. -/
theorem Body.splitCommas_separated_unbalanced :
    let s := (Body.read 0 "f(a, g(b, c), d, (e, f".toList).statement
    2 ≤ 17 ∧ s.splitCommas 2 17 = [(2, 3), (4, 10), (11, 12), (13, 17)] ∧
      s.Separated 17 2 (s.splitCommas 2 17) ∧
      ∀ i, i ∈ separators 17 (s.splitCommas 2 17) ↔ (2 ≤ i ∧ i < 17) ∧ s.is i .comma = true ∧
        ∀ opening, 2 ≤ opening → ¬s.Encloses opening i :=
  ⟨by decide, by decide +kernel, Body.splitCommas_separated _ (by decide)⟩

end AnnotatedSql
