import AnnotatedSql.Proofs.Statement.Reference

/-!
# Aliases at the end

A run of tokens may end in an alias: after `AS`, or as a word by itself that is no part of a dotted name
and no part of the type of a cast. A type that ends in a word consists of words and dots, so that the
word can belong to no cast but the last.
-/

namespace AnnotatedSql

namespace Statement

variable {s : Statement} {lo hi i : Nat}

/-! ## Paths -/

/-- A path of fields that is not empty ends in a dot and a name. -/
theorem fieldPath_last {fuel : Nat} {names : List Nat} (path : s.fieldPath? hi fuel i = some names) :
    i = hi ∨ s.is (hi - 2) .dot = true := by
  replace path := isFieldPath_of_read path
  induction path with
  | ended => exact Or.inl rfl
  | field _ dot _ _ ih =>
    rcases ih with rfl | later
    · exact Or.inr dot
    · exact Or.inr later

/-- So does a path to a column that is more than a name. -/
theorem columnPath_last {name : ColumnName} {next : Nat}
    (path : s.columnPath? lo = some (name, next)) :
    next = lo + 1 ∨ next = lo + 3 ∧ s.is (lo + 1) .dot = true := by
  obtain ⟨last, rfl, reference, _⟩ := reference_of_columnPath path
  cases reference with
  | bare _ => exact Or.inl rfl
  | qualified _ dot _ => exact Or.inr ⟨rfl, dot⟩

/-! ## Types that end in a word -/

/-- Token `i` is a word or a dot. -/
def IsPathToken (s : Statement) (i : Nat) : Prop := s.isWord i = true ∨ s.is i .dot = true

theorem followTypeDots_path (fuel : Nat) (word : String) (next : Nat) :
    ∀ j, next ≤ j → j < (s.followTypeDots fuel word next).2 → s.IsPathToken j := by
  induction fuel generalizing word next with
  | zero => exact fun j after before => absurd before (Nat.not_lt.mpr after)
  | succ fuel ih =>
    have nothing : ∀ j, next ≤ j → j < next → s.IsPathToken j := fun j after before =>
      absurd before (Nat.not_lt.mpr after)
    unfold followTypeDots
    split
    next dot =>
      split
      next part found =>
        intro j after before
        rcases Nat.lt_or_ge j (next + 2) with here | later
        · obtain rfl | rfl : j = next ∨ j = next + 1 := by omega
          · exact Or.inr dot
          · exact Or.inl (isWord_of_typeWord found)
        · exact ih part (next + 2) j later before
      · exact nothing
    · exact nothing

theorem completeType_path (word : String) (next : Nat) :
    ∀ j, next ≤ j → j < (s.completeType word next).2 → s.IsPathToken j := by
  have second : ∀ {keyword}, s.isKeyword next keyword = true →
      ∀ j, next ≤ j → j < next + 1 → s.IsPathToken j := by
    intro keyword found j after before
    obtain rfl : j = next := by omega
    exact Or.inl (isWord_of_keyword found)
  have zone : ∀ {first}, s.isTimeZone next first = true →
      ∀ j, next ≤ j → j < next + 3 → s.IsPathToken j := by
    intro first found j after before
    simp only [isTimeZone, Bool.and_eq_true] at found
    obtain rfl | rfl | rfl : j = next ∨ j = next + 1 ∨ j = next + 2 := by omega
    · exact Or.inl (isWord_of_keyword found.1.1)
    · exact Or.inl (isWord_of_keyword found.1.2)
    · exact Or.inl (isWord_of_keyword found.2)
  unfold completeType
  split
  next found => exact second (Bool.and_eq_true_iff.mp found).2
  split
  next found => exact second (Bool.and_eq_true_iff.mp found).2
  split
  next found => exact zone (Bool.and_eq_true_iff.mp found).2
  split
  next found => exact zone (Bool.and_eq_true_iff.mp found).2
  split
  next found => exact zone (Bool.and_eq_true_iff.mp found).2
  · exact fun j after before => absurd before (Nat.not_lt.mpr after)

/-- Parentheses that are passed over end in one. -/
theorem Nested.skipGroup_last (nested : s.Nested) (next : Nat) :
    s.skipGroup next = next ∨ s.isWord (s.skipGroup next - 1) = false := by
  unfold skipGroup
  split
  next opens =>
    split
    next closing paired =>
      exact Or.inr (isWord_eq_false (nested.closes (nested.pair_of_partner opens paired)) rfl)
    · exact Or.inl rfl
  · exact Or.inl rfl

/-- Array suffixes end in a bracket. -/
theorem arraySuffixes_last (fuel next : Nat) :
    (s.arraySuffixes fuel next).2 = next ∨ s.isWord ((s.arraySuffixes fuel next).2 - 1) = false := by
  induction fuel generalizing next with
  | zero => exact Or.inl rfl
  | succ fuel ih =>
    unfold arraySuffixes
    dsimp only
    split
    · generalize (if s.is (next + 1) .number then next + 2 else next + 1) = closing
      split
      next closes =>
        rcases ih (closing + 1) with same | further
        · refine Or.inr ?_
          dsimp only
          rw [same]
          exact isWord_eq_false closes rfl
        · exact Or.inr further
      · exact Or.inl rfl
    · exact Or.inl rfl

/-- A type name that ends in a word has neither a modifier nor array suffixes. -/
theorem Nested.typeName_path (nested : s.Nested) {type : TypeName} (found : s.typeName? i = some type)
    (word : s.isWord (type.hi - 1) = true) : ∀ j, i ≤ j → j < type.hi → s.IsPathToken j := by
  obtain ⟨first, read, found⟩ := Option.bind_eq_some_iff.mp found
  let dots := s.followTypeDots s.size first (i + 1)
  let words := s.completeType dots.1 dots.2
  have ends : type.hi = (s.arraySuffixes s.size (s.skipGroup words.2)).2 :=
    (congrArg TypeName.hi (Option.some.inj found)).symm
  rw [ends] at word ⊢
  have noSuffix : (s.arraySuffixes s.size (s.skipGroup words.2)).2 = s.skipGroup words.2 :=
    (arraySuffixes_last s.size (s.skipGroup words.2)).resolve_right (by simp [word])
  rw [noSuffix] at word ⊢
  have noModifier : s.skipGroup words.2 = words.2 :=
    (nested.skipGroup_last words.2).resolve_right (by simp [word])
  rw [noModifier]
  intro j after before
  rcases Nat.lt_or_ge j dots.2 with inDots | later
  · rcases Nat.eq_or_lt_of_le after with rfl | after
    · exact Or.inl (isWord_of_typeWord read)
    · exact followTypeDots_path s.size first (i + 1) j after inDots
  · exact completeType_path dots.1 dots.2 j later before

/-! ## Aliases -/

/-- The tokens from `lo` to before `hi` end in a cast: a `::` outside the parentheses among them, and
after it nothing but the name of a type. -/
def EndsInCast (s : Statement) (lo hi : Nat) : Prop :=
  ∃ cast type, (lo < cast ∧ cast < hi) ∧ s.is cast .doubleColon = true ∧
    s.enclosing cast = s.enclosing lo ∧ s.typeName? (cast + 1) = some type ∧ type.hi = hi

/-- A word at the end of a cast is part of its type, so no other cast follows. -/
theorem Nested.trailingCast_of_endsInCast (nested : s.Nested) (endsInCast : s.EndsInCast lo hi)
    (word : s.isWord (hi - 1) = true) : (s.trailingCast? lo hi).isSome = true := by
  obtain ⟨cast, type, ⟨after, before⟩, isCast, level, named, rfl⟩ := endsInCast
  have path := nested.typeName_path named word
  have passes : (s.is cast .doubleColon && s.enclosing cast == s.enclosing lo) = true := by
    simp [isCast, level]
  have only : ∀ i, cast < i → i < type.hi → s.is i .doubleColon = false := by
    intro i later inside
    rcases path i later inside with word | dot
    · refine Bool.eq_false_iff.mpr fun further => ?_
      rw [isWord_eq_false further rfl] at word
      cases word
    · exact is_eq_false dot (by simp)
  have parts : List.range' (lo + 1) (type.hi - (lo + 1)) = List.range' (lo + 1) (cast - (lo + 1)) ++
      cast :: List.range' (cast + 1) (type.hi - (cast + 1)) := by
    rw [show type.hi - (lo + 1) = cast - (lo + 1) + (type.hi - (cast + 1) + 1) by omega,
      ← List.range'_append_1, List.range'_succ, show lo + 1 + (cast - (lo + 1)) = cast by omega]
  have last : s.lastCast? lo type.hi = some cast := by
    unfold lastCast?
    rw [parts, List.reverse_append, List.reverse_cons, List.append_assoc]
    refine List.find?_eq_some_iff_append.mpr ⟨passes, _, _, rfl, fun i member => ?_⟩
    obtain ⟨later, inside⟩ := List.mem_range'_1.mp (List.mem_reverse.mp member)
    simp [only i later (by omega)]
  simp [trailingCast?, last, named]

/-- What the tokens from `lo` to before `hi` end in as the name of the column: the tokens before it end
at `stop`. It follows `AS`, or it is a word by itself: no word of a clause, no part of a dotted name and
no part of the type of a cast. -/
inductive TrailingAlias (s : Statement) (lo hi : Nat) : Nat → Name → Prop
  | introduced {stop : Nat} {name : Name} (length : lo < stop) (ends : hi = stop + 2)
      (keyword : s.isKeyword stop "as" = true) (named : s.name? (stop + 1) = some name) :
      TrailingAlias s lo hi stop name
  | bare {stop : Nat} {name : Name} (length : lo < stop) (ends : hi = stop + 1)
      (named : s.name? stop = some name) (noClause : s.isClauseKeyword stop = false)
      (noKeyword : lo + 1 < stop → s.isKeyword (stop - 1) "as" = false)
      (noPart : s.is (stop - 1) .dot = false ∧ s.is (stop - 1) .doubleColon = false)
      (noCast : ¬s.EndsInCast lo hi) : TrailingAlias s lo hi stop name

end Statement

end AnnotatedSql
