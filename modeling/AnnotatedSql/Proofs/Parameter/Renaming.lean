import AnnotatedSql.Proofs.Parameter.Table
import AnnotatedSql.Proofs.Statement.Mirrored

/-!
# Statements that differ in their placeholders

Two statements that are the same up to the keys of their placeholders, equal keys going to equal
keys and different ones to different ones, have the same occurrences and the same casts.
-/

namespace AnnotatedSql

theorem eraseDups_map {α β : Type} [BEq α] [LawfulBEq α] [BEq β] [LawfulBEq β] {f : α → β}
    {items : List α} (injective : ∀ a ∈ items, ∀ b ∈ items, f a = f b → a = b) :
    (items.map f).eraseDups = items.eraseDups.map f := by
  match items with
  | [] => rfl
  | item :: rest =>
    have others : (rest.map f).filter (fun b => !b == f item) =
        (rest.filter fun b => !b == item).map f := by
      rw [List.filter_map]
      congr 1
      refine List.filter_congr fun other member => ?_
      rw [Function.comp_apply]
      by_cases same : other = item
      · simp [same]
      · have different : f other ≠ f item := fun equal =>
          same (injective other (by simp [member]) item (by simp) equal)
        simp [same, different]
    rw [List.map_cons, List.eraseDups_cons, List.eraseDups_cons, others, List.map_cons]
    rw [eraseDups_map]
    intro a aMember b bMember
    exact injective a (by simp [(List.mem_filter.mp aMember).1]) b
      (by simp [(List.mem_filter.mp bMember).1])
termination_by items.length
decreasing_by exact Nat.lt_succ_of_le (List.length_filter_le _ _)

namespace Statement

/-- The second statement is the first with its placeholders renamed and its names respelled. -/
structure Renames (respell : Name → Name) (rename : ParamKey → ParamKey) (s t : Statement) :
    Prop where
  mirrors : s.Mirrors respell t
  paramKey : ∀ i, t.paramKey? i = (s.paramKey? i).map rename
  injective : ∀ a ∈ s.keys, ∀ b ∈ s.keys, rename a = rename b → a = b

namespace Renames

variable {respell : Name → Name} {rename : ParamKey → ParamKey} {s t : Statement}
  (renames : s.Renames respell rename t)

include renames

theorem placeholders :
    t.placeholders = s.placeholders.map fun (i, key) => (i, rename key) := by
  unfold Statement.placeholders
  rw [renames.mirrors.size, List.map_filterMap]
  congr 1
  funext i
  rw [renames.paramKey]
  cases s.paramKey? i <;> rfl

theorem keys : t.keys = s.keys.map rename := by
  unfold Statement.keys
  rw [renames.placeholders, List.map_map]
  have commute : Prod.snd ∘ (fun ((i, key) : Nat × ParamKey) => (i, rename key)) =
    rename ∘ Prod.snd := rfl
  rw [commute, ← List.map_map]
  refine eraseDups_map fun a aMember b bMember => ?_
  exact renames.injective a (List.mem_eraseDups.mpr aMember) b (List.mem_eraseDups.mpr bMember)

theorem occurrences {key : ParamKey} (used : key ∈ s.keys) :
    t.occurrences (rename key) = s.occurrences key := by
  unfold Statement.occurrences
  rw [renames.placeholders, List.filter_map, List.map_map]
  have kept : s.placeholders.filter ((fun other => other.2 == rename key) ∘
      fun (i, other) => (i, rename other)) = s.placeholders.filter fun other => other.2 == key := by
    apply List.filter_congr
    rintro ⟨i, other⟩ member
    have otherUsed : other ∈ s.keys := mem_keys.mpr ⟨i, mem_placeholders.mp member⟩
    by_cases same : other = key
    · simp [same]
    · have different : rename other ≠ rename key := fun equal =>
        same (renames.injective other otherUsed key used equal)
      simp [same, different]
  rw [kept]
  rfl

theorem hint {key : ParamKey} (used : key ∈ s.keys) : t.hint? (rename key) = s.hint? key := by
  have casts : t.castHint? = s.castHint? := funext renames.mirrors.castHint
  unfold Statement.hint?
  rw [renames.occurrences used, casts]

end Renames

end Statement

end AnnotatedSql
