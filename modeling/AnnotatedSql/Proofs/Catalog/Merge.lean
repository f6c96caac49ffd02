import AnnotatedSql.Catalog.Basic
import Mathlib.Data.List.Nodup

/-!
# Merging entries by name

Of the entries that share a name the first is kept. A name that two queries share has one report,
and that report points at every query of the name.
-/

namespace AnnotatedSql

/-- The report stands at the place or refers to it. -/
def Report.PointsAt (report : Report) (source : Nat) (span : Span) : Prop :=
  (report.source = source ∧ report.span = span) ∨
    ∃ other ∈ report.related, other.source = source ∧ other.span = span

namespace Catalog

/-- An entry is kept unless an earlier one has its name. -/
theorem mem_firstOfName_or {entries : List CatalogEntry} {entry : CatalogEntry}
    (member : entry ∈ entries) :
    entry ∈ firstOfName entries ∨
      ∃ earlier, [earlier, entry].Sublist entries ∧ earlier.name = entry.name := by
  induction entries with
  | nil => cases member
  | cons first rest ih =>
    rcases List.mem_cons.mp member with rfl | inRest
    · exact Or.inl List.mem_cons_self
    by_cases same : first.name = entry.name
    · exact Or.inr ⟨first, (List.singleton_sublist.mpr inRest).cons_cons first, same⟩
    · rcases ih inRest with kept | ⟨earlier, before, shared⟩
      · refine Or.inl (List.mem_cons_of_mem _ (List.mem_filter.mpr ⟨kept, ?_⟩))
        exact bne_iff_ne.mpr (Ne.symm same)
      · exact Or.inr ⟨earlier, before.cons first, shared⟩

/-- Entries of distinct names are all kept. -/
theorem firstOfName_of_nodup {entries : List CatalogEntry}
    (distinct : (entries.map CatalogEntry.name).Nodup) : firstOfName entries = entries := by
  induction entries with
  | nil => rfl
  | cons first rest ih =>
    rw [List.map_cons, List.nodup_cons] at distinct
    rw [firstOfName, ih distinct.2]
    refine congrArg (first :: ·) (List.filter_eq_self.mpr fun other member => bne_iff_ne.mpr ?_)
    intro same
    exact distinct.1 (same ▸ List.mem_map_of_mem member)

/-- The report on queries that share a name is an error that points at each of them. -/
theorem duplicateReport_spec (name : String) (first second : Query) (others : List Query) :
    ∃ report, duplicateReport? name (first :: second :: others) = some report ∧
      report.isError = true ∧
      ∀ query ∈ first :: second :: others, report.PointsAt query.source query.nameSpan := by
  refine ⟨_, rfl, rfl, fun query member => ?_⟩
  rcases List.mem_cons.mp member with rfl | member
  · exact Or.inr ⟨_, List.mem_cons_self, rfl, rfl⟩
  rcases List.mem_cons.mp member with rfl | member
  · exact Or.inl ⟨rfl, rfl⟩
  · exact Or.inr ⟨_, List.mem_cons_of_mem _ (List.mem_map_of_mem member), rfl, rfl⟩

/-- Of two queries that share a name there is a report, which points at both. -/
theorem duplicateReports_of_pair {queries : List Query} {a b : Query}
    (both : [a, b].Sublist queries) (same : a.name = b.name) :
    ∃ report ∈ duplicateReports queries, report.isError = true ∧
      report.PointsAt a.source a.nameSpan ∧ report.PointsAt b.source b.nameSpan := by
  have shared : [a, b].Sublist (queries.filter (·.name == b.name)) := by
    have kept := both.filter (·.name == b.name)
    simpa [same] using kept
  have aListed := shared.subset List.mem_cons_self
  have bListed := shared.subset (List.mem_cons_of_mem a List.mem_cons_self)
  obtain ⟨first, second, others, listed⟩ : ∃ first second others,
      queries.filter (·.name == b.name) = first :: second :: others := by
    have long := shared.length_le
    match found : queries.filter (·.name == b.name) with
    | [] => simp [found] at long
    | [single] => simp [found] at long
    | first :: second :: others => exact ⟨first, second, others, found⟩
  obtain ⟨report, found, isError, points⟩ := duplicateReport_spec b.name first second others
  rw [← listed] at found points
  refine ⟨report, List.mem_filterMap.mpr ⟨b.name, ?_, found⟩, isError, points a aListed,
    points b bListed⟩
  have declared : b ∈ queries := (List.mem_filter.mp bListed).1
  exact List.mem_eraseDups.mpr (List.mem_map_of_mem declared)

end Catalog

end AnnotatedSql
