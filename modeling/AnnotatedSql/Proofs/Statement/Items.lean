import AnnotatedSql.Proofs.Statement.Reference

/-!
# Items of lists

The commas directly within a pair of parentheses separate its items, and what further parentheses
enclose is part of an item. So a token is an item of its own if such commas, or the parentheses, stand
beside it, and its place is the number of such commas before it. The items of a projection are what the
commas outside all parentheses separate.
-/

namespace AnnotatedSql

/-! ## Numbers that pass a test -/

/-- The place of a number among those of a range that pass a test is the number of those before it. -/
theorem getElem?_filter_range {test : Nat → Bool} {first count k n : Nat} :
    ((List.range' first count).filter test)[k]? = some n ↔
      first ≤ n ∧ n < first + count ∧ test n = true ∧
        (List.range' first (n - first)).countP test = k := by
  induction count generalizing first k with
  | zero =>
    simp only [List.range'_zero, List.filter_nil, List.getElem?_nil]
    exact ⟨fun found => (by cases found), fun ⟨atLeast, below, _⟩ => by omega⟩
  | succ count ih =>
    have later : first < n → (List.range' first (n - first)).countP test =
        (List.range' (first + 1) (n - (first + 1))).countP test + if test first then 1 else 0 := by
      intro after
      rw [show n - first = n - (first + 1) + 1 by omega, List.range'_succ, List.countP_cons]
    rw [List.range'_succ]
    cases passes : test first with
    | false =>
      rw [List.filter_cons_of_neg (by simp [passes]), ih]
      constructor
      · rintro ⟨atLeast, below, found, place⟩
        exact ⟨by omega, by omega, found, by rw [later (by omega), place, passes]; rfl⟩
      · rintro ⟨atLeast, below, found, place⟩
        have after : first < n := Nat.lt_of_le_of_ne atLeast fun same => by
          rw [← same, passes] at found
          cases found
        rw [later after, passes] at place
        exact ⟨after, by omega, found, by simpa using place⟩
    | true =>
      rw [List.filter_cons_of_pos passes]
      cases k with
      | zero =>
        rw [List.getElem?_cons_zero, Option.some_inj]
        constructor
        · rintro rfl
          exact ⟨Nat.le_refl _, by omega, passes, by simp⟩
        · rintro ⟨atLeast, _, _, place⟩
          by_contra other
          rw [later (by omega), passes] at place
          simp at place
      | succ k =>
        rw [List.getElem?_cons_succ, ih]
        constructor
        · rintro ⟨atLeast, below, found, place⟩
          exact ⟨by omega, by omega, found, by rw [later (by omega), place, passes]; rfl⟩
        · rintro ⟨atLeast, below, found, place⟩
          have after : first < n := Nat.lt_of_le_of_ne atLeast fun same => by
            rw [same, Nat.sub_self] at place
            simp at place
          rw [later after, passes] at place
          exact ⟨after, by omega, found, by simpa using place⟩

/-- The numbers that pass a test are the same from any place before the first of them. -/
theorem filter_range'_skip {test : Nat → Bool} {first next hi : Nat} (later : first ≤ next)
    (none_ : ∀ j, first ≤ j → j < next → test j = false) :
    (List.range' first (hi - first)).filter test = (List.range' next (hi - next)).filter test := by
  induction later with
  | refl => rfl
  | @step next later ih =>
    rw [ih fun j atLeast below => none_ j atLeast (Nat.lt_succ_of_lt below)]
    by_cases inside : next < hi
    · have fails : ¬test next = true := by simp [none_ next later (Nat.lt_succ_self next)]
      rw [show hi - next = hi - (next + 1) + 1 by omega, List.range'_succ,
        List.filter_cons_of_neg fails]
    · rw [show hi - next = 0 by omega, show hi - (next + 1) = 0 by omega]
      rfl

/-- The pieces that cuts make of the range from `start` to before `hi`. An empty last piece is none. -/
def pieces (hi : Nat) : Nat → List Nat → List (Nat × Nat)
  | start, [] => if start < hi then [(start, hi)] else []
  | start, cut :: cuts => (start, cut) :: pieces hi (cut + 1) cuts

theorem getElem?_pieces {hi start lo last k : Nat} {cuts : List Nat} :
    (pieces hi start cuts)[k]? = some (lo, last) ↔
      (k = 0 ∧ lo = start ∨ ∃ before cut, k = before + 1 ∧ cuts[before]? = some cut ∧ lo = cut + 1) ∧
        (cuts[k]? = some last ∨ k = cuts.length ∧ last = hi ∧ lo < hi) := by
  induction cuts generalizing start k with
  | nil =>
    cases k with
    | zero =>
      unfold pieces
      split
      · simp; omega
      · simp; omega
    | succ k =>
      unfold pieces
      split <;> simp
  | cons cut cuts ih =>
    cases k with
    | zero => simp [pieces, eq_comm]
    | succ k =>
      rw [pieces, List.getElem?_cons_succ, ih]
      refine and_congr ?_ (by simp)
      constructor
      · rintro (⟨rfl, rfl⟩ | ⟨before, other, rfl, found, rfl⟩)
        · exact Or.inr ⟨0, cut, rfl, rfl, rfl⟩
        · exact Or.inr ⟨before + 1, other, rfl, found, rfl⟩
      · rintro (⟨none_, _⟩ | ⟨before, other, place, found, rfl⟩)
        · cases none_
        · cases before with
          | zero =>
            cases found
            exact Or.inl ⟨by omega, rfl⟩
          | succ before => exact Or.inr ⟨before, other, by omega, found, rfl⟩

/-- A piece ends at a cut or with the range. -/
theorem end_of_mem_pieces {hi start : Nat} {cuts : List Nat} {piece : Nat × Nat}
    (member : piece ∈ pieces hi start cuts) : piece.2 ∈ cuts ∨ piece.2 = hi := by
  obtain ⟨k, found⟩ := List.mem_iff_getElem?.mp member
  rcases (getElem?_pieces.mp found).2 with cut | ⟨_, last, _⟩
  · exact Or.inl (List.mem_of_getElem? cut)
  · exact Or.inr last

namespace Statement

/-- Token `i` is a comma directly within the parenthesis at `opening`. -/
def separates (s : Statement) (opening i : Nat) : Bool :=
  s.is i .comma && s.enclosing i == some opening

/-- Token `i` is a comma, and no parenthesis from token `lo` on is open there. -/
def separatesFrom (s : Statement) (lo i : Nat) : Bool :=
  s.is i .comma && (s.enclosing i).all (· < lo)

/-- What the commas outside all parentheses make of the tokens from `lo` to before `hi`. -/
def topItems (s : Statement) (lo hi : Nat) : List (Nat × Nat) :=
  pieces hi lo ((List.range' lo (hi - lo)).filter fun i => s.is i .comma && s.isTop i)

/-- The number of commas directly within the parenthesis at `opening` and before token `i`. -/
def ordinal (s : Statement) (opening i : Nat) : Nat :=
  (List.range' (opening + 1) (i - (opening + 1))).countP (s.separates opening)

/-- Token `i` alone is item `k` of what the parentheses enclose, counted from zero. -/
structure ItemAt (s : Statement) (opening closing k i : Nat) : Prop where
  within : opening < i ∧ i < closing
  token : s.separates opening i = false
  begins : i = opening + 1 ∨ s.separates opening (i - 1) = true
  ends : i + 1 = closing ∨ s.separates opening (i + 1) = true
  place : s.ordinal opening i = k

/-- The parentheses of a row among the rows, separated by commas, that begin at a token. -/
inductive RowAt (s : Statement) : Nat → Nat → Nat → Prop
  | first {opening closing : Nat} (opens : s.is opening .parenOpen = true)
      (paired : s.partner opening = some closing) : RowAt s opening opening closing
  | next {start last opening closing : Nat} (opens : s.is start .parenOpen = true)
      (paired : s.partner start = some last) (comma : s.is (last + 1) .comma = true)
      (others : RowAt s (last + 2) opening closing) : RowAt s start opening closing

variable {s : Statement} {opening closing i k : Nat}

theorem ordinal_succ (within : opening < i) :
    s.ordinal opening (i + 1) = s.ordinal opening i + if s.separates opening i then 1 else 0 := by
  unfold ordinal
  rw [show i + 1 - (opening + 1) = i - (opening + 1) + 1 by omega, List.range'_concat,
    List.countP_append, List.countP_singleton,
    show opening + 1 + 1 * (i - (opening + 1)) = i by omega]

theorem is_comma_of_separates (separates : s.separates opening i = true) : s.is i .comma = true :=
  (Bool.and_eq_true_iff.mp separates).1

theorem enclosing_of_separates (separates : s.separates opening i = true) :
    s.enclosing i = some opening := by
  simpa [Statement.separates] using (Bool.and_eq_true_iff.mp separates).2

/-! ## Splitting -/

/-- A parenthesis that is no longer open was closed in between. -/
theorem Levelled.closed_between (levelled : s.Levelled) (opens : s.is i .parenOpen = true) {j : Nat}
    (later : i < j) (closed : i ∉ s.level j) : ∃ last, i < last ∧ last < j ∧ (i, last) ∈ s.pairs := by
  induction j with
  | zero => omega
  | succ j ih =>
    by_cases open_ : i ∈ s.level j
    · -- the token before is the one that closes it
      have closes : s.is j .parenClose = true := by
        by_contra noClose
        have noClose : s.is j .parenClose = false := Bool.eq_false_iff.mpr noClose
        by_cases opensToo : s.is j .parenOpen = true
        · rw [level_of_open opensToo] at closed
          exact closed (List.mem_cons_of_mem _ open_)
        · rw [level_of_plain (Bool.eq_false_iff.mpr opensToo) noClose] at closed
          exact closed open_
      rw [level_of_close closes] at closed
      obtain ⟨top, under, level⟩ := List.exists_cons_of_ne_nil (List.ne_nil_of_mem open_)
      rw [level] at open_ closed
      obtain rfl := (List.mem_cons.mp open_).resolve_right closed
      have before := (level_mem (show i ∈ s.level j by rw [level]; exact List.mem_cons_self)).1
      exact ⟨j, before, Nat.lt_succ_self j, levelled.pair_iff.mpr ⟨closes, by rw [level]; rfl⟩⟩
    · have apart : i ≠ j := by
        rintro rfl
        rw [level_of_open opens] at closed
        exact closed List.mem_cons_self
      obtain ⟨last, after, before, paired⟩ := ih (by omega) open_
      exact ⟨last, after, by omega, paired⟩

/-- What encloses a token lies on top of everything that is open there. -/
theorem Levelled.enclosing_ge (levelled : s.Levelled) (inner : s.ClosesNothing i)
    (open_ : opening ∈ s.level i) :
    ∃ innermost, s.enclosing i = some innermost ∧ opening ≤ innermost := by
  obtain ⟨innermost, outer, level⟩ := List.exists_cons_of_ne_nil (List.ne_nil_of_mem open_)
  rw [(levelled.enclosers_of_level inner).2, level]
  refine ⟨innermost, rfl, ?_⟩
  rw [level] at open_
  rcases List.mem_cons.mp open_ with rfl | under
  · exact Nat.le_refl _
  · have under : opening ∈ s.level innermost := by
      rwa [level_of_mem (show s.level i = [] ++ innermost :: outer from level)]
    exact Nat.le_of_lt (level_mem under).1

/-- No comma after an open parenthesis separates. -/
theorem Levelled.not_separates (levelled : s.Levelled) {lo first : Nat}
    (opens : s.is first .parenOpen = true) (within : lo ≤ first) (after : first ≤ i)
    (open_ : first < i → s.is i .comma = true → first ∈ s.level i) : s.separatesFrom lo i = false := by
  refine Bool.eq_false_iff.mpr fun separates => ?_
  obtain ⟨comma, outside⟩ := Bool.and_eq_true_iff.mp separates
  have later : first < i := Nat.lt_of_le_of_ne after fun same => by
    rw [← same, is_eq_false opens (by simp)] at comma
    cases comma
  have inner := closesNothing_of_is comma (by simp)
  obtain ⟨innermost, around, deeper⟩ := levelled.enclosing_ge inner (open_ later comma)
  rw [around, Option.all_some, decide_eq_true_eq] at outside
  omega

/-- No comma separates from an opening parenthesis to the one that closes it. -/
theorem Levelled.not_separates_group (levelled : s.Levelled) {lo first j : Nat}
    (opens : s.is first .parenOpen = true) (within : lo ≤ first)
    (paired : s.partner first = some closing) (after : first ≤ j) (before : j ≤ closing) :
    s.separatesFrom lo j = false := by
  refine levelled.not_separates opens within after fun later comma => ?_
  by_contra closed
  obtain ⟨last, _, earlier, pair⟩ := levelled.closed_between opens later closed
  have same : last = closing := congrArg Prod.snd
    (levelled.pair_eq pair (levelled.toNested.pair_of_partner opens paired) (Or.inl rfl))
  omega

/-- None separates after a parenthesis that is never closed. -/
theorem Levelled.not_separates_unclosed (levelled : s.Levelled) {lo first j : Nat}
    (opens : s.is first .parenOpen = true) (within : lo ≤ first)
    (unclosed : s.partner first = none) (after : first ≤ j) : s.separatesFrom lo j = false := by
  refine levelled.not_separates opens within after fun later _ => ?_
  by_contra closed
  obtain ⟨last, _, _, pair⟩ := levelled.closed_between opens later closed
  cases unclosed.symm.trans (levelled.partner_of_opening pair)

/-- Every comma separates where all that is open was opened before the list. -/
theorem Levelled.separatesFrom_eq (levelled : s.Levelled) {lo : Nat}
    (level : ∀ outer ∈ s.level i, outer < lo) : s.separatesFrom lo i = s.is i .comma := by
  refine Bool.and_eq_left_iff_imp.mpr fun comma => ?_
  rw [(levelled.enclosers_of_level (closesNothing_of_is comma (by simp))).2]
  cases stack : s.level i with
  | nil => rfl
  | cons top under => exact decide_eq_true (level top (by simp [stack]))

/-- A token that opens nothing leaves nothing open that was not open before. -/
theorem mem_level_of_succ (noOpen : s.is i .parenOpen = false) {outer : Nat}
    (open_ : outer ∈ s.level (i + 1)) : outer ∈ s.level i := by
  by_cases closes : s.is i .parenClose = true
  · rw [level_of_close closes] at open_
    exact List.mem_of_mem_tail open_
  · rwa [level_of_plain noOpen (Bool.eq_false_iff.mpr closes)] at open_

/-- A list is split at the commas that no parenthesis within the list encloses. -/
theorem Levelled.itemsFrom_eq (levelled : s.Levelled) {lo hi fuel start : Nat} (begins : lo ≤ i)
    (level : ∀ outer ∈ s.level i, outer < lo) (enough : hi ≤ i + fuel) :
    s.itemsFrom hi fuel start i =
      pieces hi start ((List.range' i (hi - i)).filter (s.separatesFrom lo)) := by
  have last : ∀ {fuel start}, s.itemsFrom hi fuel start hi = pieces hi start [] := by
    intro fuel start
    cases fuel <;> simp [itemsFrom, pieces]
  induction fuel generalizing start i with
  | zero =>
    rw [show hi - i = 0 by omega]
    rfl
  | succ fuel ih =>
    have around := levelled.separatesFrom_eq level
    unfold itemsFrom
    split
    next inside =>
      split
      next found =>
        -- further parentheses are passed over as a whole, or up to the end if nothing closes them
        have opens : s.is i .parenOpen = true := by rw [is, found]; rfl
        cases paired : s.partner i with
        | some closing =>
          have partner := levelled.level_of_partner opens paired
          dsimp only
          rw [filter_range'_skip (show i ≤ closing + 1 by omega) fun j atLeast below =>
            levelled.not_separates_group opens begins paired atLeast (Nat.lt_succ_iff.mp below)]
          refine ih (by omega) ?_ (by omega)
          rwa [partner.2]
        | none =>
          rw [filter_range'_skip (Nat.le_of_lt inside) fun j atLeast _ =>
            levelled.not_separates_unclosed opens begins paired atLeast, Nat.sub_self]
          exact last
      next found =>
        have comma : s.is i .comma = true := by rw [is, found]; rfl
        have keeps := level_of_is comma (by simp) (by simp)
        rw [show hi - i = hi - (i + 1) + 1 by omega, List.range'_succ,
          List.filter_cons_of_pos (around.trans comma), pieces]
        refine congrArg _ (ih (by omega) ?_ (by omega))
        rwa [keeps]
      next noOpen noComma =>
        have plain : s.is i .comma = false := beq_eq_false_iff_ne.mpr noComma
        rw [filter_range'_skip (Nat.le_succ i) fun j atLeast below => ?_]
        · exact ih (by omega) (fun outer open_ =>
            level outer (mem_level_of_succ (beq_eq_false_iff_ne.mpr noOpen) open_)) (by omega)
        · rw [show j = i by omega, around, plain]
    next past =>
      rw [show hi - i = 0 by omega]
      rfl

/-- Within a pair of parentheses the commas that separate are those directly within it. -/
theorem Levelled.separates_eq (levelled : s.Levelled) (paired : (opening, closing) ∈ s.pairs)
    (within : opening < i) (before : i < closing) :
    s.separatesFrom (opening + 1) i = s.separates opening i := by
  obtain ⟨innermost, around, deeper⟩ := levelled.inside paired within before
  unfold separatesFrom separates
  rw [around, Option.all_some, Bool.eq_iff_iff, Bool.and_eq_true, Bool.and_eq_true, decide_eq_true_eq,
    beq_iff_eq, Option.some_inj]
  exact and_congr_right fun _ => ⟨fun _ => by omega, fun _ => by omega⟩

/-- An item begins after the opening parenthesis or after a comma, and ends before a comma or before the
closing parenthesis. Its place counts the commas before it. -/
theorem Levelled.getElem?_splitCommas (levelled : s.Levelled) (paired : (opening, closing) ∈ s.pairs)
    {lo last : Nat} : (s.splitCommas (opening + 1) closing)[k]? = some (lo, last) ↔
      (k = 0 ∧ lo = opening + 1 ∨ ∃ comma, lo = comma + 1 ∧ opening < comma ∧ comma < closing ∧
          s.separates opening comma = true ∧ k = s.ordinal opening comma + 1) ∧
        (opening < last ∧ last < closing ∧ s.separates opening last = true ∧
            s.ordinal opening last = k ∨
          k = s.ordinal opening closing ∧ last = closing ∧ lo < closing) := by
  have opens := levelled.opens paired
  have before : opening < closing :=
    (levelled.level_of_partner opens (levelled.partner_of_opening paired)).1
  have level : ∀ outer ∈ s.level (opening + 1), outer < opening + 1 := fun _ open_ =>
    (level_mem open_).1
  have commas : (List.range' (opening + 1) (closing - (opening + 1))).filter
      (s.separatesFrom (opening + 1)) = (List.range' (opening + 1) (closing - (opening + 1))).filter
        (s.separates opening) := by
    refine List.filter_congr fun j member => ?_
    obtain ⟨atLeast, below⟩ := List.mem_range'_1.mp member
    exact levelled.separates_eq paired (by omega) (by omega)
  have cut : ∀ {place n : Nat}, ((List.range' (opening + 1) (closing - (opening + 1))).filter
      (s.separates opening))[place]? = some n ↔
        opening < n ∧ n < closing ∧ s.separates opening n = true ∧ s.ordinal opening n = place := by
    intro place n
    rw [getElem?_filter_range, show opening + 1 + (closing - (opening + 1)) = closing by omega]
    rfl
  have count : ((List.range' (opening + 1) (closing - (opening + 1))).filter
      (s.separates opening)).length = s.ordinal opening closing :=
    List.countP_eq_length_filter.symm
  rw [splitCommas, levelled.itemsFrom_eq (Nat.le_refl _) level (by omega), commas, getElem?_pieces]
  simp only [cut, count]
  refine and_congr_left fun _ => or_congr_right ⟨?_, ?_⟩
  · rintro ⟨_, comma, rfl, ⟨after, inside, found, rfl⟩, rfl⟩
    exact ⟨comma, rfl, after, inside, found, rfl⟩
  · rintro ⟨comma, rfl, after, inside, found, rfl⟩
    exact ⟨_, comma, rfl, ⟨after, inside, found, rfl⟩, rfl⟩

/-- The items of a list that are single tokens. -/
theorem Levelled.item_iff (levelled : s.Levelled) (paired : (opening, closing) ∈ s.pairs) :
    (s.splitCommas (opening + 1) closing)[k]? = some (i, i + 1) ↔ s.ItemAt opening closing k i := by
  rw [levelled.getElem?_splitCommas paired]
  constructor
  · rintro ⟨starts, ends⟩
    have within : opening < i ∧ i < closing := by
      constructor
      · rcases starts with ⟨_, rfl⟩ | ⟨_, rfl, after, _⟩ <;> omega
      · rcases ends with ⟨_, before, _⟩ | ⟨_, _, below⟩ <;> omega
    have place : s.ordinal opening i = k := by
      rcases starts with ⟨rfl, rfl⟩ | ⟨comma, rfl, after, _, found, rfl⟩
      · simp [ordinal]
      · rw [ordinal_succ after, found]
        rfl
    have token : s.separates opening i = false := by
      refine Bool.eq_false_iff.mpr fun found => ?_
      have following := ordinal_succ (s := s) within.1
      rw [found, if_pos rfl] at following
      rcases ends with ⟨_, _, _, same⟩ | ⟨same, last, _⟩
      · omega
      · rw [← last] at same
        omega
    refine ⟨within, token, ?_, ?_, place⟩
    · rcases starts with ⟨_, rfl⟩ | ⟨_, rfl, _, _, found, _⟩
      · exact Or.inl rfl
      · exact Or.inr found
    · rcases ends with ⟨_, _, found, _⟩ | ⟨_, last, _⟩
      · exact Or.inr found
      · exact Or.inl last
  · rintro ⟨within, token, begins, ends, place⟩
    have following := ordinal_succ (s := s) within.1
    rw [token, place] at following
    constructor
    · rcases begins with rfl | found
      · exact Or.inl ⟨by rw [← place]; simp [ordinal], rfl⟩
      · have after := levelled.before (enclosing_of_separates found)
        have same : i - 1 + 1 = i := by omega
        refine Or.inr ⟨i - 1, same.symm, after, by omega, found, ?_⟩
        rw [← place, ← same, ordinal_succ after, same, found]
        rfl
    · rcases ends with last | found
      · exact Or.inr ⟨by rw [← last, following]; rfl, last, within.2⟩
      · have inside : i + 1 < closing := by
          refine Nat.lt_of_le_of_ne within.2 fun same => ?_
          have comma := is_comma_of_separates found
          rw [same, is_eq_false (levelled.closes paired) (by simp)] at comma
          cases comma
        exact Or.inl ⟨by omega, inside, found, following⟩

/-- The first item that is the token has its place. -/
theorem Levelled.findIdx_item (levelled : s.Levelled) (paired : (opening, closing) ∈ s.pairs)
    (item : s.ItemAt opening closing k i) :
    (s.splitCommas (opening + 1) closing).findIdx? (· == (i, i + 1)) = some k := by
  obtain ⟨inside, same⟩ := List.getElem?_eq_some_iff.mp ((levelled.item_iff paired).mpr item)
  refine List.findIdx?_eq_some_iff_getElem.mpr ⟨inside, by rw [same]; exact beq_self_eq_true _, ?_⟩
  intro other before again
  have found := List.getElem?_eq_some_iff.mpr ⟨Nat.lt_trans before inside, eq_of_beq again⟩
  have place := ((levelled.item_iff paired).mp found).place.symm.trans item.place
  omega

/-! ## The projection list -/

/-- From a place outside all parentheses on, the commas that separate are those outside all
parentheses. -/
theorem Levelled.separates_top (levelled : s.Levelled) {lo : Nat} (top : s.level lo = [])
    (later : lo ≤ i) : s.separatesFrom lo i = (s.is i .comma && s.isTop i) := by
  unfold separatesFrom isTop
  cases comma : s.is i .comma with
  | false => rfl
  | true =>
    cases around : s.enclosing i with
    | none => rfl
    | some innermost =>
      have innermostOpen := (levelled.enclosers_of_level (closesNothing_of_is comma (by simp))).2
      have open_ := List.mem_of_mem_head? (innermostOpen.symm.trans around)
      have inner : lo ≤ innermost :=
        (mem_level_of_le later open_).resolve_left fun outer => by rw [top] at outer; cases outer
      simp [inner]

/-- Nothing is open after a keyword outside all parentheses. -/
theorem Levelled.level_of_topKeyword (levelled : s.Levelled) {keyword : String}
    (outside : s.isTop i = true) (found : s.isKeyword i keyword = true) : s.level (i + 1) = [] := by
  have around := (levelled.enclosers_of_level (closesNothing_of_is (is_of_keyword found) (by simp))).2
  rw [level_of_keyword found, ← List.head?_eq_none_iff, ← around]
  exact Option.isNone_iff_eq_none.mp outside

/-- A token outside all parentheses that is paired opens a pair, since there is nothing to close. -/
theorem Levelled.level_after_partner (levelled : s.Levelled) {closing : Nat} (top : s.level i = [])
    (paired : s.partner i = some closing) : s.level (closing + 1) = [] := by
  have listed : (i, closing) ∈ s.pairs := by
    refine (levelled.partner_iff.mp paired).resolve_right fun closes => ?_
    have innermost := (levelled.pair_iff.mp closes).2
    rw [top] at innermost
    cases innermost
  rw [(levelled.level_of_partner (levelled.opens listed) paired).2, top]

/-- The list of a `SELECT` outside all parentheses starts outside all parentheses. -/
theorem Levelled.level_selectListStart (levelled : s.Levelled) (outside : s.isTop i = true)
    (select : s.isKeyword i "select" = true) : s.level (s.selectListStart i) = [] := by
  have first := levelled.level_of_topKeyword outside select
  unfold selectListStart
  split
  next all => exact (level_of_keyword all).trans first
  split
  next distinct =>
    have second := (level_of_keyword distinct).trans first
    split
    next on =>
      split
      next closing paired =>
        exact levelled.level_after_partner ((level_of_keyword on).trans second) paired
      · exact second
    · exact second
  · exact first

/-- The projection list starts outside all parentheses. -/
theorem Levelled.projectionRange_top (levelled : s.Levelled) {lo hi : Nat}
    (ranged : s.projectionRange? = some (lo, hi)) : s.level lo = [] := by
  obtain ⟨verb, first, ranged⟩ := Option.bind_eq_some_iff.mp ranged
  dsimp only at ranged
  split at ranged
  next select =>
    cases ranged
    exact levelled.level_selectListStart
      (Bool.and_eq_true_iff.mp (findTop_eq_some_iff.mp first).1).1 select
  · split at ranged
    · cases ranged
    · obtain ⟨returning, found, same⟩ := Option.bind_eq_some_iff.mp ranged
      cases same
      obtain ⟨outside, keyword⟩ := Bool.and_eq_true_iff.mp (findTop_eq_some_iff.mp found).1
      exact levelled.level_of_topKeyword outside keyword

/-- The place where a search ends is one that it looks for or the one where it gives up. -/
theorem findTop_getD (lo hi : Nat) (test : Nat → Bool) :
    test ((s.findTop? lo hi test).getD hi) = true ∨ (s.findTop? lo hi test).getD hi = hi := by
  cases found : s.findTop? lo hi test with
  | none => exact Or.inr rfl
  | some i => exact Or.inl (Bool.and_eq_true_iff.mp (findTop_eq_some_iff.mp found).1).2

/-- The projection list ends before a keyword or a semicolon, or with the statement. -/
theorem projectionRange_not_dot {lo hi : Nat} (ranged : s.projectionRange? = some (lo, hi)) :
    s.is hi .dot = false := by
  obtain ⟨verb, _, ranged⟩ := Option.bind_eq_some_iff.mp ranged
  have atStop : s.is ((s.findTop? verb s.size (s.is · .semicolon)).getD s.size) .dot = false := by
    rcases s.findTop_getD verb s.size (s.is · .semicolon) with semicolon | last
    · exact is_eq_false semicolon (by simp)
    · rw [last]
      exact Bool.eq_false_iff.mpr fun dot => Nat.lt_irrefl _ (lt_size_of_is dot)
  dsimp only at ranged
  split at ranged
  · cases ranged
    rcases s.findTop_getD _ _ (s.isOneOf · selectListEnd) with ends | last
    · obtain ⟨keyword, _, found⟩ := List.any_eq_true.mp ends
      exact is_eq_false (is_of_keyword found) (by simp)
    · rw [last]
      exact atStop
  · split at ranged
    · cases ranged
    · obtain ⟨returning, _, same⟩ := Option.bind_eq_some_iff.mp ranged
      cases same
      exact atStop

/-- The commas outside all parentheses make the items of the projection. -/
theorem Levelled.projectionItems_eq (levelled : s.Levelled) {lo hi : Nat}
    (ranged : s.projectionRange? = some (lo, hi)) :
    s.projectionItems? = some (s.topItems lo hi) := by
  have top := levelled.projectionRange_top ranged
  have level : ∀ outer ∈ s.level lo, outer < lo := by simp [top]
  have commas : (List.range' lo (hi - lo)).filter (s.separatesFrom lo) =
      (List.range' lo (hi - lo)).filter fun i => s.is i .comma && s.isTop i :=
    List.filter_congr fun i member =>
      levelled.separates_top top (List.mem_range'_1.mp member).1
  rw [projectionItems?, ranged, topItems, ← commas]
  exact congrArg some (levelled.itemsFrom_eq (Nat.le_refl _) level (by omega))

/-- No item of the projection ends before a dot. -/
theorem item_not_dot {lo hi : Nat} (ranged : s.projectionRange? = some (lo, hi))
    {item : Nat × Nat} (member : item ∈ s.topItems lo hi) : s.is item.2 .dot = false := by
  rcases end_of_mem_pieces member with cut | last
  · exact is_eq_false (Bool.and_eq_true_iff.mp (List.mem_filter.mp cut).2).1 (by simp)
  · rw [last]
    exact projectionRange_not_dot ranged

/-! ## Rows -/

namespace RowAt

variable {start : Nat}

theorem opens (row : s.RowAt start opening closing) : s.is opening .parenOpen = true := by
  induction row with
  | first opens _ => exact opens
  | next _ _ _ _ ih => exact ih

theorem paired (row : s.RowAt start opening closing) : s.partner opening = some closing := by
  induction row with
  | first _ paired => exact paired
  | next _ _ _ _ ih => exact ih

theorem start_le (row : s.RowAt start opening closing) (levelled : s.Levelled) :
    start ≤ opening := by
  induction row with
  | first _ _ => exact Nat.le_refl _
  | next opens paired _ _ ih =>
    have := (levelled.level_of_partner opens paired).1
    omega

/-- A row is the first one, or it follows a comma. -/
theorem preceded (row : s.RowAt start opening closing) :
    opening = start ∨ s.is (opening - 1) .comma = true := by
  induction row with
  | first _ _ => exact Or.inl rfl
  | next _ _ comma _ ih =>
    rcases ih with rfl | comma
    · exact Or.inr comma
    · exact Or.inr comma

/-- Each row is read. What is found in it, and in none that ends before it, is found first. -/
theorem findSome {β : Type} {f : Nat × Nat → Option β} {x : β} {fuel : Nat}
    (row : s.RowAt start opening closing) (levelled : s.Levelled) (enough : s.size ≤ start + fuel)
    (found : f (opening, closing) = some x)
    (others : ∀ first last, last < opening → f (first, last) = none) :
    (s.valueRows fuel start).findSome? f = some x := by
  induction row generalizing fuel with
  | first opens paired =>
    have inside := lt_size_of_is opens
    obtain ⟨less, rfl⟩ := Nat.exists_eq_add_of_le' (show 1 ≤ fuel by omega)
    rw [valueRows, if_pos opens, paired, List.findSome?_cons, found]
  | @next start last opening closing opens paired comma row ih =>
    have inside := lt_size_of_is opens
    obtain ⟨less, rfl⟩ := Nat.exists_eq_add_of_le' (show 1 ≤ fuel by omega)
    have after := (levelled.level_of_partner opens paired).1
    have later := row.start_le levelled
    rw [valueRows, if_pos opens, paired]
    dsimp only
    rw [if_pos comma, List.findSome?_cons, others start last (by omega)]
    exact ih (by omega) found others

end RowAt

end Statement

end AnnotatedSql
