import AnnotatedSql.Proofs.Statement.TypeSpelling

/-!
# Levels

The level of a place in a statement are the parentheses that are open there, innermost first. It
tells what encloses a token, and a pair of parentheses leaves it as it was. A run of tokens that
closes all the parentheses it opens, and no others, has the same pairs and the same levels wherever
it stands, on top of the level that it stands at.
-/

namespace AnnotatedSql

namespace Nesting

variable {index n k opening closing : Nat} {stack inner outer : List Nat} {kind : TokenKind}
  {kinds : List TokenKind}

/-! ## Runs of tokens -/

/-- The parentheses open after a token. -/
def step (index : Nat) (stack : List Nat) : TokenKind → List Nat
  | .parenOpen => index :: stack
  | .parenClose => stack.tail
  | _ => stack

/-- The parentheses open after a run of tokens. -/
def openAfter (index : Nat) (stack : List Nat) : List TokenKind → List Nat
  | [] => stack
  | kind :: kinds => openAfter (index + 1) (step index stack kind) kinds

/-- The parentheses around a token. A closing one lies outside the pair it ends. -/
def outside (stack : List Nat) (kind : TokenKind) : List Nat :=
  if kind = .parenClose then stack.tail else stack

theorem step_of_plain (noOpen : kind ≠ .parenOpen) (noClose : kind ≠ .parenClose) :
    step index stack kind = stack := by
  cases kind <;> first | rfl | contradiction

theorem openAfter_append (index : Nat) (stack : List Nat) (first rest : List TokenKind) :
    openAfter index stack (first ++ rest) =
      openAfter (index + first.length) (openAfter index stack first) rest := by
  induction first generalizing index stack with
  | nil => rfl
  | cons kind first ih =>
    rw [List.cons_append, openAfter, ih, openAfter, List.length_cons,
      show index + 1 + first.length = index + (first.length + 1) by omega]

theorem around_cons : around index stack (kind :: kinds) =
    (outside stack kind).head? :: around (index + 1) (step index stack kind) kinds := by
  cases kind with
  | parenClose => cases stack <;> rfl
  | _ => rfl

theorem pairs_cons : pairs index stack (kind :: kinds) =
    (if kind = .parenClose then stack.head?.map (·, index) else none).toList ++
      pairs (index + 1) (step index stack kind) kinds := by
  cases kind with
  | parenClose => cases stack <;> rfl
  | _ => rfl

/-- What is open around the next token is what the tokens before it leave open. -/
theorem around_get (index : Nat) (stack : List Nat) (kinds : List TokenKind) (k : Nat) :
    (around index stack kinds)[k]? =
      kinds[k]?.map fun kind => (outside (openAfter index stack (kinds.take k)) kind).head? := by
  induction kinds generalizing index stack k with
  | nil => rfl
  | cons kind kinds ih =>
    rw [around_cons]
    cases k with
    | zero => rfl
    | succ k => exact ih (index + 1) _ k

theorem mem_step {opening : Nat} (open_ : opening ∈ step index stack kind) :
    opening = index ∧ kind = .parenOpen ∨ opening ∈ stack := by
  cases kind with
  | parenOpen => exact (List.mem_cons.mp open_).imp_left (⟨·, rfl⟩)
  | parenClose => exact Or.inr (List.mem_of_mem_tail open_)
  | _ => exact Or.inr open_

/-- A parenthesis that is open was open before or stands in the run. -/
theorem mem_openAfter (open_ : opening ∈ openAfter index stack kinds) :
    opening ∈ stack ∨ index ≤ opening ∧ kinds[opening - index]? = some .parenOpen := by
  induction kinds generalizing index stack with
  | nil => exact Or.inl open_
  | cons kind kinds ih =>
    rcases ih open_ with before | ⟨after, found⟩
    · exact (mem_step before).elim (fun ⟨same, opens⟩ => Or.inr (by simp [same, opens])) Or.inl
    · refine Or.inr ⟨by omega, ?_⟩
      rw [show opening - index = opening - (index + 1) + 1 by omega]
      exact found

theorem step_lt (before : ∀ other ∈ stack, other < index) :
    ∀ other ∈ step index stack kind, other < index + 1 := by
  intro other open_
  rcases mem_step open_ with ⟨rfl, _⟩ | known
  · exact Nat.lt_succ_self _
  · exact Nat.lt_succ_of_lt (before other known)

/-- What lies under a parenthesis that stays open stays there. -/
theorem openAfter_under (known : opening < index)
    (open_ : openAfter index stack kinds = inner ++ opening :: outer) :
    ∃ above, stack = above ++ opening :: outer := by
  induction kinds generalizing index stack with
  | nil => exact ⟨inner, open_⟩
  | cons kind kinds ih =>
    obtain ⟨above, stepped⟩ := ih (Nat.lt_succ_of_lt known) open_
    cases kind with
    | parenOpen =>
      rcases above with _ | ⟨top, above⟩
      · have same : index = opening := (List.cons.inj stepped).1
        omega
      · exact ⟨above, (List.cons.inj stepped).2⟩
    | parenClose =>
      rcases stack with _ | ⟨top, stack⟩
      · exact absurd stepped (by simp [step])
      · exact ⟨top :: above, congrArg (top :: ·) stepped⟩
    | _ => exact ⟨above, stepped⟩

/-- The parentheses around an open one are those that were open before it. -/
theorem openAfter_history (before : ∀ other ∈ stack, other < index)
    (open_ : openAfter index stack kinds = inner ++ opening :: outer) (after : index ≤ opening) :
    openAfter index stack (kinds.take (opening - index)) = outer := by
  induction kinds generalizing index stack with
  | nil =>
    have known : opening ∈ stack := by
      rw [show stack = inner ++ opening :: outer from open_]
      simp
    exact absurd (before opening known) (Nat.not_lt.mpr after)
  | cons kind kinds ih =>
    rcases Nat.eq_or_lt_of_le after with rfl | later
    · obtain ⟨above, stepped⟩ := openAfter_under (Nat.lt_succ_self _) open_
      have fresh : index ∉ stack := fun known => Nat.lt_irrefl _ (before index known)
      have opens : kind = .parenOpen := by
        have listed : index ∈ step index stack kind := by simp [stepped]
        exact ((mem_step listed).resolve_right fresh).2
      subst opens
      rcases above with _ | ⟨top, above⟩
      · rw [Nat.sub_self]
        exact (List.cons.inj stepped).2
      · have under : stack = above ++ index :: outer := (List.cons.inj stepped).2
        exact absurd (by simp [under]) fresh
    · rw [show opening - index = opening - (index + 1) + 1 by omega]
      exact ih (step_lt before) open_ later

/-- A closing parenthesis is paired with the innermost one that is open before it. -/
theorem mem_pairs_iff : (opening, closing) ∈ pairs index stack kinds ↔
    index ≤ closing ∧ kinds[closing - index]? = some .parenClose ∧
      (openAfter index stack (kinds.take (closing - index))).head? = some opening := by
  induction kinds generalizing index stack with
  | nil => simp [pairs]
  | cons kind kinds ih =>
    rw [pairs_cons, List.mem_append, ih]
    constructor
    · rintro (here | ⟨after, closes, innermost⟩)
      · split at here
        next closes =>
          obtain ⟨top, found, same⟩ := Option.map_eq_some_iff.mp (Option.mem_toList.mp here)
          cases same
          rw [Nat.sub_self]
          exact ⟨Nat.le_refl _, congrArg some closes, found⟩
        · cases here
      · rw [show closing - index = closing - (index + 1) + 1 by omega]
        exact ⟨by omega, closes, innermost⟩
    · rintro ⟨after, closes, innermost⟩
      rcases Nat.eq_or_lt_of_le after with rfl | later
      · rw [Nat.sub_self] at closes innermost
        have found : stack.head? = some opening := innermost
        rw [if_pos (Option.some.inj closes), found]
        exact Or.inl (by simp)
      · rw [show closing - index = closing - (index + 1) + 1 by omega] at closes innermost
        exact Or.inr ⟨later, closes, innermost⟩

/-! ## Balanced runs -/

/-- Whether a run closes `depth` parentheses and all those that it opens, and no others. -/
def closesAll : Nat → List TokenKind → Bool
  | depth, [] => depth == 0
  | depth, .parenOpen :: kinds => closesAll (depth + 1) kinds
  | 0, .parenClose :: _ => false
  | depth + 1, .parenClose :: kinds => closesAll depth kinds
  | depth, _ :: kinds => closesAll depth kinds

/-- The parentheses that a run may close move with it, and what lies under them stays. -/
theorem step_moved (closes : closesAll stack.length (kind :: kinds) = true) (index n : Nat)
    (under : List Nat) :
    step (index + n) (stack.map (· + n) ++ under) kind =
        (step index stack kind).map (· + n) ++ under ∧
      closesAll (step index stack kind).length kinds = true := by
  cases kind with
  | parenClose =>
    rcases stack with _ | ⟨top, stack⟩
    · cases closes
    · exact ⟨rfl, closes⟩
  | _ => exact ⟨rfl, by cases stack <;> exact closes⟩

theorem openAfter_moved (closes : closesAll stack.length kinds = true) (index n : Nat)
    (under : List Nat) (k : Nat) :
    openAfter (index + n) (stack.map (· + n) ++ under) (kinds.take k) =
      (openAfter index stack (kinds.take k)).map (· + n) ++ under := by
  induction kinds generalizing index stack k with
  | nil => simp [openAfter]
  | cons kind kinds ih =>
    cases k with
    | zero => rfl
    | succ k =>
      obtain ⟨stepped, further⟩ := step_moved closes index n under
      rw [List.take_succ_cons, openAfter, openAfter, stepped, Nat.add_right_comm]
      exact ih further (index + 1) k

theorem openAfter_closed (closes : closesAll stack.length kinds = true) :
    openAfter index stack kinds = [] := by
  induction kinds generalizing index stack with
  | nil => simpa [closesAll, openAfter] using closes
  | cons kind kinds ih => exact ih (step_moved closes index 0 []).2

end Nesting

/-- The lexemes close all parentheses that they open, and no others. -/
def Balanced (lexemes : List Lexeme) : Prop := Nesting.closesAll 0 (lexemes.map (·.kind)) = true

instance (lexemes : List Lexeme) : Decidable (Balanced lexemes) :=
  inferInstanceAs (Decidable (_ = _))

namespace Statement

/-- The parentheses open before token `i`, innermost first. -/
def level (s : Statement) (i : Nat) : List Nat :=
  Nesting.openAfter 0 [] ((s.lexemes.toList.take i).map (·.kind))

/-- Token `i` exists and is no closing parenthesis. -/
def ClosesNothing (s : Statement) (i : Nat) : Prop := i < s.size ∧ s.is i .parenClose = false

/-- The level tells what is around a token and what it is paired with. -/
structure Levelled (s : Statement) : Prop extends s.Matched where
  enclosing_eq : ∀ {i kind}, s.kind? i = some kind →
    s.enclosing i = (Nesting.outside (s.level i) kind).head?
  pair_iff : ∀ {opening closing}, (opening, closing) ∈ s.pairs ↔
    s.is closing .parenClose = true ∧ (s.level closing).head? = some opening

theorem ofLexemes_levelled (lexemes : List Lexeme) : (ofLexemes lexemes).Levelled := by
  have kind : ∀ i, (ofLexemes lexemes).kind? i = (lexemes.map (·.kind))[i]? := by
    intro i
    simp [kind?, ofLexemes]
  refine ⟨ofLexemes_matched lexemes, fun {i found} at_i => ?_, fun {opening closing} => ?_⟩
  · have around : (ofLexemes lexemes).around[i]? = _ :=
      (List.getElem?_toArray ..).trans (Nesting.around_get 0 [] (lexemes.map (·.kind)) i)
    rw [enclosing, around, ← kind, at_i, ← List.map_take]
    rfl
  · refine Nesting.mem_pairs_iff.trans ?_
    rw [is, kind, beq_iff_eq, Nat.sub_zero, ← List.map_take]
    exact and_iff_right (Nat.zero_le _)

section Levels

variable {s : Statement} {i n : Nat} {kind : TokenKind}

theorem level_zero (s : Statement) : s.level 0 = [] := rfl

theorem level_succ (found : s.kind? i = some kind) :
    s.level (i + 1) = Nesting.step i (s.level i) kind := by
  obtain ⟨lexeme, listed, rfl⟩ := Option.map_eq_some_iff.mp found
  have listed : s.lexemes.toList[i]? = some lexeme := by simpa using listed
  have length : (s.lexemes.toList.take i).length = i :=
    List.length_take_of_le (Nat.le_of_lt (List.getElem?_eq_some_iff.mp listed).1)
  rw [level, List.take_add_one, listed, List.map_append, Nesting.openAfter_append, List.length_map,
    length, Nat.zero_add]
  rfl

theorem level_of_open (opens : s.is i .parenOpen = true) : s.level (i + 1) = i :: s.level i :=
  level_succ (eq_of_beq opens)

theorem level_of_close (closes : s.is i .parenClose = true) : s.level (i + 1) = (s.level i).tail :=
  level_succ (eq_of_beq closes)

/-- A token that is no parenthesis keeps the level. -/
theorem level_of_plain (noOpen : s.is i .parenOpen = false) (noClose : s.is i .parenClose = false) :
    s.level (i + 1) = s.level i := by
  unfold is at noOpen noClose
  cases found : s.kind? i with
  | none =>
    have past : s.lexemes.toList.length ≤ i := by
      simpa [kind?] using found
    rw [level, level, List.take_of_length_le past, List.take_of_length_le (Nat.le_succ_of_le past)]
  | some kind =>
    rw [found] at noOpen noClose
    rw [level_succ found, Nesting.step_of_plain]
    · rintro rfl
      cases noOpen
    · rintro rfl
      cases noClose

/-- What is open before a token are parentheses before it. -/
theorem level_mem {opening : Nat} (open_ : opening ∈ s.level i) :
    opening < i ∧ s.is opening .parenOpen = true := by
  rcases Nesting.mem_openAfter open_ with none_ | ⟨_, found⟩
  · cases none_
  · rw [Nat.sub_zero, List.getElem?_map] at found
    obtain ⟨lexeme, listed, opens⟩ := Option.map_eq_some_iff.mp found
    rw [List.getElem?_take] at listed
    split at listed
    next before =>
      refine ⟨before, ?_⟩
      have listed : s.lexemes[opening]? = some lexeme := by simpa using listed
      rw [is, kind?, listed, Option.map_some, opens]
      exact beq_self_eq_true _
    · cases listed

/-- What is opened after a place and still open stands after that place. -/
theorem mem_level_of_le {lo outer : Nat} (later : lo ≤ i) (open_ : outer ∈ s.level i) :
    outer ∈ s.level lo ∨ lo ≤ outer := by
  induction later with
  | refl => exact Or.inl open_
  | @step i later ih =>
    by_cases opens : s.is i .parenOpen = true
    · rw [level_of_open opens] at open_
      rcases List.mem_cons.mp open_ with rfl | under
      · exact Or.inr later
      · exact ih under
    by_cases closes : s.is i .parenClose = true
    · rw [level_of_close closes] at open_
      exact ih (List.mem_of_mem_tail open_)
    · rw [level_of_plain (Bool.eq_false_iff.mpr opens) (Bool.eq_false_iff.mpr closes)] at open_
      exact ih open_

/-- The level of an open parenthesis is what lies under it. -/
theorem level_of_mem {inner outer : List Nat} {opening : Nat}
    (open_ : s.level i = inner ++ opening :: outer) : s.level opening = outer := by
  have before := (level_mem (by rw [open_]; simp : opening ∈ s.level i)).1
  have history := Nesting.openAfter_history (by simp) open_ (Nat.zero_le _)
  rw [Nat.sub_zero, ← List.map_take, List.take_take, Nat.min_eq_left (Nat.le_of_lt before)] at history
  exact history

namespace Levelled

variable (levelled : s.Levelled)

include levelled

theorem paired : s.Paired := by
  intro opening closing pair
  obtain ⟨closes, innermost⟩ := levelled.pair_iff.mp pair
  exact ⟨(level_mem (List.mem_of_mem_head? innermost)).1, lt_size_of_is closes⟩

/-- After a pair of parentheses the level is what it was before it. -/
theorem level_of_partner {closing : Nat} (opens : s.is i .parenOpen = true)
    (paired : s.partner i = some closing) : i < closing ∧ s.level (closing + 1) = s.level i := by
  have listed := levelled.toNested.pair_of_partner opens paired
  obtain ⟨closes, innermost⟩ := levelled.pair_iff.mp listed
  obtain ⟨outer, split⟩ : ∃ outer, s.level closing = i :: outer := by
    cases stack : s.level closing with
    | nil =>
      rw [stack] at innermost
      cases innermost
    | cons top outer =>
      rw [stack] at innermost
      cases innermost
      exact ⟨outer, rfl⟩
  refine ⟨(level_mem (by rw [split]; simp : i ∈ s.level closing)).1, ?_⟩
  rw [level_of_close closes, split]
  exact (level_of_mem (show s.level closing = [] ++ i :: outer from split)).symm

theorem outwards_level {fuel : Nat} {inner stack : List Nat} (open_ : s.level i = inner ++ stack)
    (enough : ∀ opening ∈ stack.head?, opening < fuel) : s.outwards fuel stack.head? = stack := by
  induction stack generalizing inner i fuel with
  | nil => cases fuel <;> rfl
  | cons opening outer ih =>
    obtain ⟨less, rfl⟩ := Nat.exists_eq_add_of_lt (enough opening rfl)
    have under := level_of_mem open_
    have opens := (level_mem (by rw [open_]; simp : opening ∈ s.level i)).2
    have around : s.enclosing opening = outer.head? := by
      rw [levelled.enclosing_eq (eq_of_beq opens), under]
      rfl
    rw [List.head?_cons, outwards, around]
    have same : s.level opening = [] ++ outer := under
    refine congrArg (opening :: ·) (ih same fun next member => ?_)
    have inOuter : next ∈ s.level opening := by
      rw [under]
      exact List.mem_of_mem_head? member
    have before := (level_mem inOuter).1
    omega

/-- The parentheses around a token are those open before it, but for the one that it closes. -/
theorem enclosers_eq (found : s.kind? i = some kind) :
    s.enclosers i = Nesting.outside (s.level i) kind := by
  have suffix : Nesting.outside (s.level i) kind <:+ s.level i := by
    unfold Nesting.outside
    split
    · exact List.tail_suffix _
    · exact List.suffix_rfl
  obtain ⟨inner, open_⟩ := suffix
  rw [enclosers, levelled.enclosing_eq found]
  refine levelled.outwards_level open_.symm fun opening member => ?_
  have inLevel : opening ∈ s.level i := by
    rw [← open_]
    exact List.mem_append_right _ (List.mem_of_mem_head? member)
  exact (level_mem inLevel).1

/-- Around a token that closes nothing is all that is open before it. -/
theorem enclosers_of_level (inner : s.ClosesNothing i) :
    s.enclosers i = s.level i ∧ s.enclosing i = (s.level i).head? := by
  obtain ⟨inside, noClose⟩ := inner
  obtain ⟨kind, found⟩ := exists_kind_of_lt inside
  have plain : Nesting.outside (s.level i) kind = s.level i := by
    refine if_neg ?_
    rintro rfl
    rw [is, found, beq_self_eq_true] at noClose
    cases noClose
  rw [levelled.enclosers_eq found, levelled.enclosing_eq found, plain]
  exact ⟨rfl, rfl⟩

/-- A token with nothing open before it stands outside all parentheses. -/
theorem isTop_of_level (inner : s.ClosesNothing i) (top : s.level i = []) : s.isTop i = true := by
  rw [isTop, (levelled.enclosers_of_level inner).2, top]
  rfl

end Levelled

/-- What is found outside parentheses is the first such token of a range. -/
theorem findTop_eq_some_iff {lo hi : Nat} {test : Nat → Bool} :
    s.findTop? lo hi test = some i ↔ (s.isTop i && test i) = true ∧ lo ≤ i ∧ i < hi ∧
      ∀ j, lo ≤ j → j < i → (s.isTop j && test j) = false := by
  unfold findTop?
  rw [List.find?_range'_eq_some]
  simp only [List.mem_range'_1, Bool.not_eq_true']
  constructor
  · rintro ⟨found, ⟨atLeast, below⟩, others⟩
    exact ⟨found, atLeast, by omega, others⟩
  · rintro ⟨found, atLeast, below, others⟩
    exact ⟨found, ⟨atLeast, by omega⟩, others⟩

/-! ## Runs of tokens -/

namespace HasAt

variable {lexemes : List Lexeme} (written : s.HasAt i lexemes)

include written

theorem level_add {k : Nat} (inside : k ≤ lexemes.length) :
    s.level (i + k) = Nesting.openAfter i (s.level i) ((lexemes.map (·.kind)).take k) := by
  obtain ⟨after, whole⟩ := written
  have parts : s.lexemes.toList.take (i + k) = s.lexemes.toList.take i ++ lexemes.take k := by
    rw [List.take_add, ← whole, List.take_append_of_le_length inside]
  have length : lexemes = [] ∨ (s.lexemes.toList.take i).length = i := by
    rcases Nat.lt_or_ge i s.lexemes.toList.length with before | past
    · exact Or.inr (List.length_take_of_le (Nat.le_of_lt before))
    · rw [List.drop_eq_nil_of_le past] at whole
      exact Or.inl (List.append_eq_nil_iff.mp whole).1
  rw [level, parts, List.map_append, Nesting.openAfter_append, List.length_map, ← List.map_take]
  rcases length with rfl | length
  · simp [Nesting.openAfter, level]
  · rw [length, Nat.zero_add]
    rfl

/-- Balanced tokens end at the level that they began at. -/
theorem level_balanced (balanced : Balanced lexemes) :
    s.level (i + lexemes.length) = s.level i := by
  have closes : Nesting.closesAll ([] : List Nat).length (lexemes.map (·.kind)) = true := balanced
  have moved := Nesting.openAfter_moved closes 0 i (s.level i) lexemes.length
  have closed : Nesting.openAfter 0 [] (lexemes.map (·.kind)) = [] := Nesting.openAfter_closed closes
  rw [List.take_of_length_le (by simp)] at moved
  rw [written.level_add (Nat.le_refl _), List.take_of_length_le (by simp)]
  rw [closed, Nat.zero_add] at moved
  exact moved

/-- What balanced tokens have opened lies on top of the level that they began at. -/
theorem level_within (balanced : Balanced lexemes) {k : Nat} (inside : k ≤ lexemes.length) :
    s.level (i + k) = (Nesting.openAfter 0 [] ((lexemes.map (·.kind)).take k)).map (· + i) ++
      s.level i := by
  have closes : Nesting.closesAll ([] : List Nat).length (lexemes.map (·.kind)) = true := balanced
  have moved := Nesting.openAfter_moved closes 0 i (s.level i) k
  rw [Nat.zero_add] at moved
  rw [written.level_add inside]
  exact moved

end HasAt

end Levels

end Statement

end AnnotatedSql
