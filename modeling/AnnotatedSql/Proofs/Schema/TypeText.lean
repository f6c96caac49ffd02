import AnnotatedSql.Proofs.Schema.Reference
import AnnotatedSql.Proofs.Text.Trimming
import AnnotatedSql.Statement.Name

/-!
# Elements and arrays

A cast writes a type as an element and pairs of brackets after it. Each pair is taken off for one
array, and the element, which ends in no bracket, stands for what its text as a whole does.
-/

namespace AnnotatedSql

/-- Pairs of brackets at the end of a type text. -/
def brackets (depth : Nat) : List Char := (List.replicate depth ['[', ']']).flatten

/-- The text has no blanks at its ends, and no array suffix or modifier at its end. -/
structure ElementText (text : List Char) : Prop where
  begins : ∃ c, text.head? = some c ∧ isBlank c = false
  ends : ∃ c, text.getLast? = some c ∧ isBlank c = false ∧ c ≠ ')' ∧ c ≠ ']'

/-- Arrays of arrays of the type. -/
def DataType.arrays : Nat → DataType → DataType
  | 0, type => type
  | depth + 1, type => .array (arrays depth type)

theorem brackets_succ (depth : Nat) : brackets (depth + 1) = brackets depth ++ ['[', ']'] := by
  simp [brackets, List.replicate_succ']

/-- The spelling of a type name is its element and brackets. -/
theorem toList_append_brackets (element : String) (depth : Nat) :
    (element ++ String.join (List.replicate depth "[]")).toList =
      element.toList ++ brackets depth := by
  simp [brackets, String.toList_join, List.flatMap]

theorem length_brackets (depth : Nat) : depth ≤ (brackets depth).length := by
  simp [brackets]
  omega

/-- A text that is visible at both ends has nothing to trim. -/
theorem trim_visible {text : List Char} (begins : ∃ c, text.head? = some c ∧ isBlank c = false)
    (ends : ∃ c, text.getLast? = some c ∧ isBlank c = false) : trim text = text := by
  obtain ⟨first, starts, visible⟩ := begins
  obtain ⟨last, stops, visibleToo⟩ := ends
  obtain ⟨rest, rfl⟩ := List.head?_eq_some_iff.mp starts
  rw [trim, List.dropWhile_cons_of_neg (by simp [visible]), trimEnd_of_last stops visibleToo]

theorem withoutArraySuffix_append (text : List Char) :
    withoutArraySuffix? (text ++ ['[', ']']) = some text := by
  simp [withoutArraySuffix?]

namespace ElementText

variable {text : List Char}

theorem withoutArraySuffix (element : ElementText text) : withoutArraySuffix? text = none := by
  obtain ⟨last, stops, _, _, noBracket⟩ := element.ends
  unfold withoutArraySuffix?
  split
  next bracketed =>
    have closes := congrArg List.head? bracketed
    rw [List.head?_reverse, stops, List.head?_cons] at closes
    exact absurd (Option.some.inj closes) noBracket
  next => rfl

theorem withoutModifier (element : ElementText text) : withoutModifier text = text := by
  obtain ⟨last, stops, _, noGroup, _⟩ := element.ends
  unfold AnnotatedSql.withoutModifier
  rw [stops, if_neg (by simp [noGroup])]

theorem trim_brackets (element : ElementText text) (depth : Nat) :
    trim (text ++ brackets depth) = text ++ brackets depth := by
  obtain ⟨first, starts, visible⟩ := element.begins
  refine trim_visible ⟨first, by simp [List.head?_append, starts], visible⟩ ?_
  cases depth with
  | zero =>
    obtain ⟨last, stops, visible, _⟩ := element.ends
    exact ⟨last, by simpa [brackets] using stops, visible⟩
  | succ depth => exact ⟨']', by simp [brackets_succ], by decide⟩

/-- A type text is read by taking its brackets off, one pair for one array. -/
theorem typeWithin {schema : Schema} (element : ElementText text) {depth fuel : Nat}
    (enough : depth ≤ fuel) : schema.typeWithin? fuel (text ++ brackets depth) =
      (schema.baseType? text).map (DataType.arrays depth) := by
  induction depth generalizing fuel with
  | zero =>
    have none_ : schema.typeWithin? fuel text = schema.elementType? text := by
      have trimmed := element.trim_brackets 0
      rw [brackets, List.replicate_zero, List.flatten_nil, List.append_nil] at trimmed
      cases fuel with
      | zero => rw [Schema.typeWithin?, trimmed]
      | succ fuel => rw [Schema.typeWithin?, trimmed, element.withoutArraySuffix]
    have same : DataType.arrays 0 = id := rfl
    rw [brackets, List.replicate_zero, List.flatten_nil, List.append_nil, none_,
      Schema.elementType?_eq, element.withoutModifier, same, Option.map_id_fun, id_eq]
  | succ depth ih =>
    obtain ⟨less, rfl⟩ := Nat.exists_eq_add_of_le' (Nat.one_le_of_lt enough)
    rw [Schema.typeWithin?, element.trim_brackets, brackets_succ, ← List.append_assoc,
      withoutArraySuffix_append]
    dsimp only
    rw [ih (Nat.le_of_succ_le_succ enough), Option.map_map]
    rfl

end ElementText

/-- What an element with brackets stands for. -/
theorem Schema.typeNamed?_brackets (schema : Schema) {name : String} {text : List Char}
    (element : ElementText text) {depth : Nat} (spelled : name.toList = text ++ brackets depth) :
    schema.typeNamed? name = (schema.baseType? text).map (DataType.arrays depth) := by
  unfold typeNamed?
  rw [spelled]
  refine element.typeWithin ?_
  rw [← String.length_toList, spelled, List.length_append]
  exact Nat.le_trans (length_brackets depth) (Nat.le_add_left _ _)

end AnnotatedSql
