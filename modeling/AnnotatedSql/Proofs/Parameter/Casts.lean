import AnnotatedSql.Parameter.Binding
import AnnotatedSql.Proofs.Statement.Pairing

/-!
# What a placeholder is cast to

A cast belongs to a placeholder if nothing stands between them but parentheses that group. Those of
a function with an unquoted name do not: there the result of the function is cast.
-/

namespace AnnotatedSql

namespace Statement

/-- The two tokens are a pair of parentheses, and no unquoted function name stands before it. -/
structure Groups (s : Statement) (opening closing : Nat) : Prop where
  opens : s.is opening .parenOpen = true
  closes : s.is closing .parenClose = true
  partners : s.partner closing = some opening
  uncalled : ∀ before, before + 1 = opening → s.is before .ident = true →
    s.isClauseKeyword before = true

/-- The innermost `depth` parentheses on either side of token `i` group it. -/
def GroupedBy (s : Statement) (i depth : Nat) : Prop :=
  depth ≤ i ∧ ∀ k, 0 < k → k ≤ depth → s.Groups (i - k) (i + k)

/-- What leads from the placeholder at `i` to the type name from `lo` to before `hi` that it is cast
to: two colons after all groups, or an `AS` that ends the argument of a `CAST`. -/
inductive CastTo (s : Statement) (i lo hi : Nat) : Prop
  | colons (depth : Nat) (grouped : s.GroupedBy i depth) (start : lo = i + depth + 2)
      (colons : s.is (i + depth + 1) .doubleColon = true)
  | call (depth : Nat) (grouped : s.GroupedBy i depth) (start : lo = i + depth + 2)
      (room : depth + 2 ≤ i) (opens : s.is (i - depth - 1) .parenOpen = true)
      (cast : s.isKeyword (i - depth - 2) "cast" = true)
      (separates : s.isKeyword (i + depth + 1) "as" = true)
      (closes : s.partner (i - depth - 1) = some hi)

variable {s : Statement} {i lo hi depth : Nat} {type : TypeName}

/-- A token is of one kind. -/
theorem is_eq_false {kind other : TokenKind} (found : s.is i kind = true)
    (different : kind ≠ other) : s.is i other = false := by
  unfold is at found ⊢
  rw [eq_of_beq found]
  simpa using different

theorem is_of_keyword {keyword : String} (found : s.isKeyword i keyword = true) :
    s.is i .ident = true := by
  unfold isKeyword at found
  exact (Bool.and_eq_true_iff.mp found).1

/-- A type name that is read begins where it is read. -/
theorem typeName_lo (found : s.typeName? i = some type) : type.lo = i := by
  obtain ⟨_, _, found⟩ := Option.bind_eq_some_iff.mp found
  cases found
  rfl

theorem isCall_eq_false_iff {opening : Nat} : s.isCall opening = false ↔
    ∀ before, before + 1 = opening → s.is before .ident = true →
      s.isClauseKeyword before = true := by
  unfold isCall
  cases opening with
  | zero => simp
  | succ before => simp

section

variable (matched : s.Matched)

include matched

/-- A range is widened exactly by parentheses that group it. -/
theorem widens_iff : (0 < lo && s.is (lo - 1) .parenOpen && s.partner (lo - 1) == some (hi + 1) &&
    !s.isCall (lo - 1)) = true ↔ 0 < lo ∧ s.Groups (lo - 1) (hi + 1) := by
  simp only [Bool.and_eq_true, decide_eq_true_eq, beq_iff_eq, Bool.not_eq_true',
    isCall_eq_false_iff, and_assoc]
  refine and_congr_right fun _ => ?_
  constructor
  · rintro ⟨opens, paired, uncalled⟩
    have pair := matched.pair_of_partner opens paired
    exact ⟨opens, matched.closes pair, matched.partner_of_closing pair, uncalled⟩
  · rintro ⟨opens, closes, paired, uncalled⟩
    refine ⟨opens, ?_, uncalled⟩
    rcases matched.partner_iff.mp paired with impossible | pair
    · have closesToo := matched.closes impossible
      rw [is_eq_false opens (by simp)] at closesToo
      cases closesToo
    · exact matched.partner_of_opening pair

/-- A range is widened by groups, and by as many as there are. -/
theorem widen_groups {fuel : Nat} (enough : lo ≤ fuel) : ∃ depth ≤ lo,
    s.widen fuel lo hi = (lo - depth, hi + depth) ∧
      (∀ k, 0 < k → k ≤ depth → s.Groups (lo - k) (hi + k)) ∧
      (depth < lo → ¬s.Groups (lo - (depth + 1)) (hi + (depth + 1))) := by
  induction fuel generalizing lo hi with
  | zero => exact ⟨0, Nat.zero_le _, rfl, by omega, by omega⟩
  | succ fuel ih =>
    by_cases step : 0 < lo ∧ s.Groups (lo - 1) (hi + 1)
    · obtain ⟨depth, bound, widened, groups, ends⟩ := @ih (lo - 1) (hi + 1) (by omega)
      refine ⟨depth + 1, by omega, ?_, fun k positive within => ?_, fun inside => ?_⟩
      · rw [widen, if_pos ((widens_iff matched).mpr step), widened, Prod.mk.injEq]
        omega
      · rcases Nat.eq_or_lt_of_le (Nat.succ_le_of_lt positive) with rfl | further
        · exact step.2
        · have inner := groups (k - 1) (by omega) (by omega)
          rwa [show lo - 1 - (k - 1) = lo - k by omega,
            show hi + 1 + (k - 1) = hi + k by omega] at inner
      · have outermost := ends (by omega)
        rwa [show lo - 1 - (depth + 1) = lo - (depth + 1 + 1) by omega,
          show hi + 1 + (depth + 1) = hi + (depth + 1 + 1) by omega] at outermost
    · refine ⟨0, Nat.zero_le _, ?_, by omega, fun inside groups => step ⟨inside, groups⟩⟩
      rw [widen, if_neg (mt (widens_iff matched).mp step)]
      rfl

/-- Unwrapping stops at the first token that does not close a group. -/
theorem unwrapParens_of_grouped (grouped : s.GroupedBy i depth)
    (stops : s.is (i + depth + 1) .parenClose = false) :
    s.unwrapParens i i = (i - depth, i + depth) := by
  obtain ⟨found, bound, widened, groups, ends⟩ := @widen_groups s i i matched i (Nat.le_refl i)
  have same : found = depth := by
    rcases Nat.lt_trichotomy found depth with less | same | more
    · exact absurd (grouped.2 (found + 1) (by omega) less) (ends (by have := grouped.1; omega))
    · exact same
    · have closes := (groups (depth + 1) (by omega) more).closes
      rw [← Nat.add_assoc, stops] at closes
      cases closes
  rw [unwrapParens, widened, same]

/-- A placeholder is cast to the type name that a cast leads to, if one is read there. -/
theorem castHint_iff : s.castHint? i = some type ↔
    s.typeName? type.lo = some type ∧ s.CastTo i type.lo type.hi := by
  constructor
  · intro cast
    obtain ⟨depth, bound, widened, groups, _⟩ := @widen_groups s i i matched i (Nat.le_refl i)
    have grouped : s.GroupedBy i depth := ⟨bound, groups⟩
    unfold castHint? unwrapParens at cast
    rw [widened] at cast
    dsimp only at cast
    split at cast
    next colons =>
      have begins := typeName_lo cast
      exact ⟨by rwa [begins], .colons depth grouped begins colons⟩
    next =>
      unfold castTarget? at cast
      split at cast
      next inCall =>
        simp only [Bool.and_eq_true, decide_eq_true_eq] at inCall
        obtain ⟨⟨⟨room, opens⟩, keyword⟩, separates⟩ := inCall
        obtain ⟨read, closes⟩ := Option.filter_eq_some_iff.mp cast
        have begins := typeName_lo read
        exact ⟨by rwa [begins],
          .call depth grouped begins (by omega) opens keyword separates (by simpa using closes)⟩
      · cases cast
  · rintro ⟨read, ⟨depth, grouped, begins, colons⟩ |
      ⟨depth, grouped, begins, room, opens, cast, separates, closes⟩⟩
    · unfold castHint?
      rw [unwrapParens_of_grouped matched grouped (is_eq_false colons (by simp))]
      dsimp only
      rw [if_pos colons, ← begins, read]
    · have word := is_of_keyword separates
      unfold castHint?
      rw [unwrapParens_of_grouped matched grouped (is_eq_false word (by simp))]
      dsimp only
      rw [is_eq_false word (by simp), if_neg (by simp), castTarget?, if_pos ?_]
      · rw [← begins, read, Option.filter_some, closes]
        simp
      · simp only [Bool.and_eq_true, decide_eq_true_eq]
        exact ⟨⟨⟨by omega, opens⟩, cast⟩, separates⟩

end

end Statement

/-- A placeholder is cast by the two colons after it, or after parentheses around it, exactly if all
these parentheses group it: none of them follows a function with an unquoted name. -/
theorem Body.cast_over_groups (body : Body) (i : Nat) (type : TypeName) :
    (body.statement.castHint? i = some type ∧
        body.statement.is (type.lo - 1) .doubleColon = true) ↔
      ∃ depth ≤ i, (∀ k, 0 < k → k ≤ depth → body.statement.Groups (i - k) (i + k)) ∧
        body.statement.is (i + depth + 1) .doubleColon = true ∧
        body.statement.typeName? (i + depth + 2) = some type := by
  have matched : body.statement.Matched := Statement.ofLexemes_matched _
  rw [Statement.castHint_iff matched]
  constructor
  · rintro ⟨⟨read, ⟨depth, grouped, begins, colons⟩ | ⟨depth, _, begins, _, _, _, separates, _⟩⟩,
      colonsBefore⟩
    · exact ⟨depth, grouped.1, grouped.2, colons, begins ▸ read⟩
    · have noColons : body.statement.is (i + depth + 1) .doubleColon = false :=
        Statement.is_eq_false (Statement.is_of_keyword separates) (by simp)
      rw [begins, show i + depth + 2 - 1 = i + depth + 1 by omega, noColons] at colonsBefore
      cases colonsBefore
  · rintro ⟨depth, bound, groups, colons, read⟩
    have begins := Statement.typeName_lo read
    refine ⟨⟨by rwa [begins], .colons depth ⟨bound, groups⟩ begins colons⟩, ?_⟩
    rwa [begins, show i + depth + 2 - 1 = i + depth + 1 by omega]

/-- The call of `lower` is not what groups the placeholder, the parentheses inside of it are. -/
example : (Body.read 0 "select lower(((:a))::text)::int4".toList).statement.castHint? 5 =
    some ⟨"text", 9, 10⟩ := by decide +kernel

/-- The parentheses of a function with a quoted name are taken for a group: its argument has the
cast that its result is written with. -/
theorem Query.quoted_call_casts_argument :
    let query : Query := ⟨0, ⟨⟨"q", .implicit, .many, false⟩, ⟨4, 5⟩, [], none⟩, ⟨3, 5⟩,
      "SELECT \"lower\"(:a)::text;\n".toList, ⟨6, 32⟩⟩
    query ∈ (parseModule 0 "_stream" "--! q\nSELECT \"lower\"(:a)::text;\n".toList).queries ∧
      query.statement.isParam 3 = true ∧ query.statement.castHint? 3 = some ⟨"text", 6, 7⟩ ∧
      query.statement.is 5 .doubleColon = true ∧ query.statement.partner 4 = some 2 ∧
      query.statement.is 1 .quotedIdent = true ∧
      (query.bind.value.map fun parameters => parameters.map Parameter.hint) =
        some [some ⟨"text", 6, 7⟩] := by
  decide +kernel

end AnnotatedSql
