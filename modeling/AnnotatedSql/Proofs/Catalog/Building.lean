import AnnotatedSql.Compilation
import AnnotatedSql.Proofs.Parameter.Table
import Mathlib.Data.List.Forall2
import Mathlib.Data.List.Induction

/-!
# Building a catalog module by module

A catalog can be built by adding one module after another, with a table of the queries declared
under each name beside the entries kept so far. Both tables record the whole history of modules:
the first as the queries gathered by name, the second as the first entry of each name. The catalog
and the reports of a finished building are those of all its modules at once.
-/

namespace AnnotatedSql

namespace Catalog

/-- A catalog to which modules are still added. -/
structure Building where
  /-- Each declared name with its queries, names and queries in order of declaration. -/
  declared : List (String × List Query) := []
  /-- The entries kept so far. -/
  entries : List CatalogEntry := []

namespace Building

/-- Puts a query under its name, which is new if it has no queries yet. -/
def declare : List (String × List Query) → Query → List (String × List Query)
  | [], query => [(query.name, [query])]
  | (name, queries) :: rest, query =>
    if name == query.name then (name, queries ++ [query]) :: rest
    else (name, queries) :: declare rest query

/-- Keeps an entry unless its name is taken. -/
def enter (entries : List CatalogEntry) (entry : CatalogEntry) : List CatalogEntry :=
  if (get? entries entry.name).isSome then entries else entries ++ [entry]

/-- Adds a module: all its queries to the first table, those that resolve to the second. -/
def add (building : Building) (compiled : CompiledModule) : Building where
  declared := compiled.declared.foldl declare building.declared
  entries := (entriesOf compiled).foldl enter building.entries

/-- The building of some modules, added in order. -/
def ofModules (modules : List CompiledModule) : Building := modules.foldl add {}

/-- The catalog, and a report on each name with several queries. -/
def finish (building : Building) : List CatalogEntry × List Report :=
  (building.entries, building.declared.filterMap fun (name, queries) =>
    duplicateReport? name queries)

end Building

/-! ## Declared queries -/

/-- The queries gathered by name. -/
def byName (queries : List Query) : List (String × List Query) :=
  (queries.map Query.name).eraseDups.map fun name => (name, queries.filter (·.name == name))

/-- The reports on shared names come from the queries gathered by name. -/
theorem duplicateReports_eq (queries : List Query) :
    duplicateReports queries =
      (byName queries).filterMap fun (name, queries) => duplicateReport? name queries := by
  unfold duplicateReports byName
  rw [List.filterMap_map]
  rfl

end Catalog

/-- Without repetitions, one more item is new or is not seen. -/
theorem eraseDups_concat {α : Type} [BEq α] [LawfulBEq α] (items : List α) (item : α) :
    (items ++ [item]).eraseDups =
      if item ∈ items then items.eraseDups else items.eraseDups ++ [item] := by
  rw [List.eraseDups_append, List.removeAll]
  by_cases within : item ∈ items <;> simp [within, List.eraseDups_cons]

namespace Catalog

/-- Declaring in a table in which each name stands once. -/
theorem declare_map (gathered : String → List Query) (query : Query) {names : List String}
    (distinct : names.Nodup) :
    Building.declare (names.map fun name => (name, gathered name)) query =
      (names.map fun name =>
        (name, if name == query.name then gathered name ++ [query] else gathered name)) ++
      if query.name ∈ names then [] else [(query.name, [query])] := by
  induction names with
  | nil => rfl
  | cons name names ih =>
    rw [List.nodup_cons] at distinct
    rw [List.map_cons, List.map_cons, Building.declare]
    by_cases same : name = query.name
    · subst same
      have others : names.map (fun name => (name,
          if name == query.name then gathered name ++ [query] else gathered name)) =
          names.map fun name => (name, gathered name) := by
        refine List.map_congr_left fun name member => ?_
        have different : name ≠ query.name := fun same => distinct.1 (same ▸ member)
        rw [if_neg (by simpa using different)]
      rw [others, if_pos List.mem_cons_self]
      simp
    · rw [ih distinct.2]
      simp [same, Ne.symm same]

/-- One more query among the queries gathered by name. -/
theorem byName_concat (queries : List Query) (query : Query) :
    byName (queries ++ [query]) = Building.declare (byName queries) query := by
  have gathered : ∀ name, (queries ++ [query]).filter (·.name == name) =
      if name == query.name then queries.filter (·.name == name) ++ [query]
      else queries.filter (·.name == name) := by
    intro name
    by_cases same : name = query.name
    · simp [List.filter_append, same]
    · simp [List.filter_append, same, Ne.symm same]
  unfold byName
  rw [declare_map _ _ (nodup_eraseDups _), List.map_append, List.map_singleton, eraseDups_concat]
  simp only [gathered, List.mem_eraseDups]
  by_cases known : query.name ∈ queries.map Query.name
  · rw [if_pos known, if_pos known, List.append_nil]
  · have first : queries.filter (·.name == query.name) = [] := by
      refine List.filter_eq_nil_iff.mpr fun other member same => known ?_
      exact eq_of_beq same ▸ List.mem_map_of_mem member
    rw [if_neg known, if_neg known, List.map_append, List.map_singleton, first]
    simp

theorem byName_append (queries others : List Query) :
    byName (queries ++ others) = others.foldl Building.declare (byName queries) := by
  induction others generalizing queries with
  | nil => rw [List.append_nil, List.foldl_nil]
  | cons query others ih =>
    rw [List.foldl_cons, ← byName_concat, ← ih, List.append_assoc, List.singleton_append]

/-! ## Entries -/

theorem get?_cons (first : CatalogEntry) (rest : List CatalogEntry) (name : String) :
    get? (first :: rest) name = if first.name == name then some first else get? rest name := by
  unfold get?
  rw [List.find?_cons]
  cases first.name == name <;> rfl

/-- Leaving out one name leaves the entries of other names. -/
theorem get?_filter {entries : List CatalogEntry} {name other : String} (different : name ≠ other) :
    get? (entries.filter (·.name != other)) name = get? entries name := by
  unfold get?
  rw [List.find?_filter]
  congr 1
  funext entry
  by_cases same : entry.name = name
  · simp [same, different]
  · simp [same]

/-- The entry kept of a name is the first of that name. -/
theorem get?_firstOfName (entries : List CatalogEntry) (name : String) :
    get? (firstOfName entries) name = get? entries name := by
  induction entries with
  | nil => rfl
  | cons first rest ih =>
    rw [firstOfName, get?_cons, get?_cons]
    by_cases same : first.name = name
    · rw [if_pos (beq_iff_eq.mpr same), if_pos (beq_iff_eq.mpr same)]
    · rw [get?_filter (Ne.symm same), ih]

/-- One more entry is kept unless its name is taken. -/
theorem firstOfName_concat (entries : List CatalogEntry) (entry : CatalogEntry) :
    firstOfName (entries ++ [entry]) = Building.enter (firstOfName entries) entry := by
  induction entries with
  | nil => rfl
  | cons first rest ih =>
    rw [List.cons_append, firstOfName, ih, firstOfName]
    unfold Building.enter
    by_cases same : first.name = entry.name
    · have taken : (get? (first :: (firstOfName rest).filter (·.name != first.name))
          entry.name).isSome = true := by
        rw [get?_cons, if_pos (beq_iff_eq.mpr same)]
        rfl
      rw [if_pos taken]
      split
      · rfl
      · simp [List.filter_append, same]
    · rw [get?_cons, if_neg (fun taken => same (eq_of_beq taken)), get?_filter (Ne.symm same)]
      split
      · rfl
      · simp [List.filter_append, Ne.symm same]

theorem firstOfName_append (entries others : List CatalogEntry) :
    firstOfName (entries ++ others) = others.foldl Building.enter (firstOfName entries) := by
  induction others generalizing entries with
  | nil => rw [List.append_nil, List.foldl_nil]
  | cons entry others ih =>
    rw [List.foldl_cons, ← firstOfName_concat, ← ih, List.append_assoc, List.singleton_append]

/-- Some entry has the name exactly when one is found. -/
theorem get?_isSome {entries : List CatalogEntry} {name : String} :
    (get? entries name).isSome = true ↔ name ∈ entries.map CatalogEntry.name := by
  simp [get?]

/-- The names of the entries kept are all names without repetitions. -/
theorem firstOfName_names (entries : List CatalogEntry) :
    (firstOfName entries).map CatalogEntry.name = (entries.map CatalogEntry.name).eraseDups := by
  induction entries using List.reverseRecOn with
  | nil => rfl
  | append_singleton entries entry ih =>
    rw [firstOfName_concat, List.map_append, List.map_singleton, eraseDups_concat, ← ih]
    unfold Building.enter
    rw [get?_firstOfName]
    simp only [get?_isSome]
    split
    · rfl
    · rw [List.map_append, List.map_singleton]

/-- Entering keeps the entries there are where they are. -/
theorem enter_extends (entries others : List CatalogEntry) :
    entries <+: others.foldl Building.enter entries := by
  induction others generalizing entries with
  | nil => exact List.prefix_rfl
  | cons entry others ih =>
    refine List.IsPrefix.trans ?_ (ih _)
    unfold Building.enter
    split
    · exact List.prefix_rfl
    · exact List.prefix_append _ _

/-! ## Buildings -/

namespace Building

/-- The building records the modules: all queries by name, and the first entry of each name. -/
structure Records (building : Building) (modules : List CompiledModule) : Prop where
  declared : building.declared = byName (modules.flatMap CompiledModule.declared)
  entries : building.entries = firstOfName (modules.flatMap entriesOf)

/-- A module that is added is recorded after those before it. -/
theorem Records.add {building : Building} {modules : List CompiledModule}
    (records : building.Records modules) (compiled : CompiledModule) :
    (building.add compiled).Records (modules ++ [compiled]) where
  declared := by
    rw [List.flatMap_append, List.flatMap_singleton, byName_append, ← records.declared]
    rfl
  entries := by
    rw [List.flatMap_append, List.flatMap_singleton, firstOfName_append, ← records.entries]
    rfl

/-- The building of some modules records them. -/
theorem records_ofModules (modules : List CompiledModule) : (ofModules modules).Records modules := by
  induction modules using List.reverseRecOn with
  | nil => exact ⟨rfl, rfl⟩
  | append_singleton modules compiled ih =>
    rw [ofModules, List.foldl_concat]
    exact ih.add compiled

/-- Finishing gives the catalog and the reports of all modules at once. -/
theorem finish_ofModules (modules : List CompiledModule) :
    (ofModules modules).finish =
      (Catalog.ofModules modules, duplicateReports (modules.flatMap CompiledModule.declared)) := by
  have records := records_ofModules modules
  rw [finish, records.declared, records.entries, duplicateReports_eq]
  rfl

end Building

/-! ## Reports -/

/-- The names declared at least twice, in order of first declaration. -/
def sharedNames (queries : List Query) : List String :=
  (queries.map Query.name).eraseDups.filter fun name => 2 ≤ (queries.map Query.name).count name

/-- The report is the one on the queries that share the name: an error at the second of them that
refers to the first and then to the later ones in order. -/
structure ReportsShared (queries : List Query) (name : String) (report : Report) : Prop where
  kind : report.kind = .duplicateQueryName
  message : report.message = DiagnosticKind.duplicateQueryName.detailed name
  places : ∃ first second others, queries.filter (·.name == name) = first :: second :: others ∧
    report.source = second.source ∧ report.span = second.nameSpan ∧
    report.related = ⟨"first defined here", first.source, first.nameSpan⟩ ::
      others.map fun other => ⟨"also defined here", other.source, other.nameSpan⟩

/-- Two queries of a name are what a report on it takes. -/
theorem duplicateReport_of_count (queries : List Query) (name : String) :
    (2 ≤ (queries.map Query.name).count name ∧
      ∃ report, duplicateReport? name (queries.filter (·.name == name)) = some report ∧
        ReportsShared queries name report) ∨
    ((queries.map Query.name).count name < 2 ∧
      duplicateReport? name (queries.filter (·.name == name)) = none) := by
  have counted : (queries.map Query.name).count name =
      (queries.filter (·.name == name)).length := by
    rw [List.count, List.countP_map, List.countP_eq_length_filter]
    rfl
  rw [counted]
  cases found : queries.filter (·.name == name) with
  | nil => exact Or.inr ⟨by simp, rfl⟩
  | cons first rest =>
    cases rest with
    | nil => exact Or.inr ⟨by simp, rfl⟩
    | cons second others =>
      refine Or.inl ⟨by simp, _, rfl, rfl, rfl, first, second, others, found, rfl, rfl, rfl⟩

/-- There is one report for each name declared at least twice, and no other. -/
theorem duplicateReports_shared (queries : List Query) :
    List.Forall₂ (ReportsShared queries) (sharedNames queries) (duplicateReports queries) := by
  unfold sharedNames duplicateReports
  induction (queries.map Query.name).eraseDups with
  | nil => exact .nil
  | cons name names ih =>
    rw [List.filter_cons]
    rcases duplicateReport_of_count queries name with ⟨often, report, found, reports⟩ | ⟨rare, none⟩
    · simp only [often, decide_true, if_true, List.filterMap_cons, found]
      exact .cons reports ih
    · simp only [Nat.not_le.mpr rare, decide_false, Bool.false_eq_true, if_false,
        List.filterMap_cons, none]
      exact ih

/-- Merging modules one after another. The catalog has the names of all resolved queries without
repetitions, each with the entry of the first resolved query of that name; there is one report for
each name declared at least twice, in order of first declaration; and further modules leave the
entries as they are. What compiling makes of the modules at once is the same. -/
theorem finish_merges (modules : List CompiledModule) :
    let (entries, reports) := (Building.ofModules modules).finish
    let resolved := modules.flatMap CompiledModule.resolved
    let declared := modules.flatMap CompiledModule.declared
    (∀ strict, (merge strict modules).catalog = entries) ∧
      reports = duplicateReports declared ∧
      entries.map CatalogEntry.name = (resolved.map (·.query.name)).eraseDups ∧
      (∀ name, get? entries name = get? (modules.flatMap entriesOf) name) ∧
      (sharedNames declared).Nodup ∧
      List.Forall₂ (ReportsShared declared) (sharedNames declared) reports ∧
      ∀ further, entries <+: (Building.ofModules (modules ++ further)).finish.1 := by
  have names : (modules.flatMap entriesOf).map CatalogEntry.name =
      (modules.flatMap CompiledModule.resolved).map (·.query.name) := by
    simp only [List.map_flatMap, entriesOf, List.map_map]
    rfl
  rw [Building.finish_ofModules]
  refine ⟨fun strict => rfl, rfl, ?_, get?_firstOfName _, (nodup_eraseDups _).filter _,
    duplicateReports_shared _, fun further => ?_⟩
  · rw [← names]
    exact firstOfName_names _
  · rw [Building.finish_ofModules, ofModules, ofModules, List.flatMap_append, firstOfName_append]
    exact enter_extends _ _

end Catalog

end AnnotatedSql
