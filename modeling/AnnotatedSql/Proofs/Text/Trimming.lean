import AnnotatedSql.Text.Line
import Mathlib.Data.List.DropRight

/-!
# Blanks at the ends of a text

Trimming takes away the blanks at the ends of a text and leaves the rest as it is.
-/

namespace AnnotatedSql

theorem trimEnd_eq (text : List Char) : trimEnd text = text.rdropWhile isBlank := rfl

theorem trimEnd_starts (text : List Char) : trimEnd text <+: text :=
  List.rdropWhile_prefix _ _

/-- Blanks are dropped up to the first part that has something else. -/
theorem trimEnd_append (a b : List Char) :
    trimEnd (a ++ b) = if trimEnd b = [] then trimEnd a else a ++ trimEnd b := by
  rw [trimEnd_eq, trimEnd_eq, trimEnd_eq]
  induction b using List.reverseRecOn with
  | nil => simp
  | append_singleton b c ih =>
    rw [← List.append_assoc, List.rdropWhile_concat, List.rdropWhile_concat]
    by_cases blank : isBlank c = true
    · simp only [blank, if_true]
      exact ih
    · simp [blank]

theorem trimEnd_of_last {text : List Char} {c : Char} (last : text.getLast? = some c)
    (visible : isBlank c = false) : trimEnd text = text := by
  rw [trimEnd_eq, List.rdropWhile_eq_self_iff]
  intro nonempty
  rw [List.getLast?_eq_some_getLast nonempty] at last
  cases last
  simp [visible]

/-- What is left begins with no blank. -/
theorem visible_of_dropWhile {text rest : List Char} {c : Char}
    (left : text.dropWhile isBlank = c :: rest) : isBlank c = false := by
  induction text with
  | nil => cases left
  | cons d text ih =>
    rw [List.dropWhile_cons] at left
    split at left
    · exact ih left
    next visible =>
      cases left
      simpa using visible

theorem trim_idempotent (text : List Char) : trim (trim text) = trim text := by
  have starts : (trim text).dropWhile isBlank = trim text := by
    cases kept : trim text with
    | nil => rfl
    | cons c rest =>
      have within := trimEnd_starts (text.dropWhile isBlank)
      obtain ⟨after, whole⟩ := (kept ▸ within : c :: rest <+: text.dropWhile isBlank)
      have visible := visible_of_dropWhile whole.symm
      rw [List.dropWhile_cons, visible]
      rfl
  have ends : trimEnd (trim text) = trim text := List.rdropWhile_idempotent _ _
  calc trim (trim text) = trimEnd ((trim text).dropWhile isBlank) := rfl
    _ = trimEnd (trim text) := by rw [starts]
    _ = trim text := ends

end AnnotatedSql
