import AnnotatedSql.Compilation
import AnnotatedSql.Proofs.Block.HeaderLine
import AnnotatedSql.Proofs.Catalog.Merge
import AnnotatedSql.Proofs.Query.Extent
import Mathlib.Data.List.Flatten
import Mathlib.Data.List.Forall2

/-!
# No query is dropped

Every header line of the sources has an entry in the catalog or an error in its block. Without an
error the catalog is the list of the header lines.
-/

namespace AnnotatedSql

/-- The name of the entry stands in the header line. -/
structure CatalogEntry.HeadedBy (entry : CatalogEntry) (site : HeaderSite) : Prop where
  source : entry.query.source = site.source
  name : entry.query.nameSpan.Inside site.line

/-- The report, or a place it refers to, stands in the block of the header line. -/
def Report.Concerns (report : Report) (site : HeaderSite) : Prop :=
  (report.source = site.source ∧ report.span.Inside site.block) ∨
    ∃ other ∈ report.related, other.source = site.source ∧ other.span.Inside site.block

namespace Block

variable (schema : Schema) (suffix moduleName : String) (source : Nat)

/-- The entry of a block, if it holds a query that resolves. -/
def entry? (block : Block) : Option CatalogEntry :=
  ((Query.ofBlock source suffix block).toOption.bind fun query =>
    (query.resolve schema).1).map (⟨moduleName, ·⟩)

end Block

/-! ## Modules -/

section

variable (schema : Schema) (suffix : String) (source : Source) (index : Nat)

/-- The blocks of the module. -/
def Source.blocks (source : Source) : List Block := (Layout.ofText source.text.toList).blocks

theorem parseModule_queries : (parseModule index suffix source.text.toList).queries =
    source.blocks.filterMap fun block => (Query.ofBlock index suffix block).toOption := by
  simp only [parseModule, List.filterMap_map]
  rfl

theorem compileModule_declared :
    (compileModule schema suffix source index).declared =
      source.blocks.filterMap fun block => (Query.ofBlock index suffix block).toOption :=
  parseModule_queries suffix source index

theorem entriesOf_compileModule :
    Catalog.entriesOf (compileModule schema suffix source index) =
      source.blocks.filterMap (Block.entry? schema suffix source.origin.moduleName index) := by
  simp only [Catalog.entriesOf, compileModule, parseModule, List.filterMap_map, List.map_filterMap,
    List.filterMap_filterMap]
  refine List.filterMap_congr fun block _ => ?_
  simp only [Function.comp_apply, Block.entry?]
  cases Query.ofBlock index suffix block <;> rfl

/-- A block without a query leaves its report. -/
theorem report_of_error {block : Block} (member : block ∈ source.blocks) {report : Report}
    (fails : Query.ofBlock index suffix block = .error report) :
    report ∈ (compileModule schema suffix source index).reports := by
  refine List.mem_append_left _ (List.mem_append_right _ ?_)
  refine List.mem_filterMap.mpr ⟨.error report, ?_, rfl⟩
  exact List.mem_map.mpr ⟨block, member, fails⟩

/-- A block with a query leaves the reports on it. -/
theorem report_of_query {block : Block} (member : block ∈ source.blocks) {query : Query}
    (reads : Query.ofBlock index suffix block = .ok query) {report : Report}
    (reported : report ∈ (query.resolve schema).2) :
    report ∈ (compileModule schema suffix source index).reports := by
  refine List.mem_append_right _ (List.mem_flatMap.mpr ⟨_, List.mem_map_of_mem ?_, reported⟩)
  refine List.mem_filterMap.mpr ⟨.ok query, ?_, rfl⟩
  exact List.mem_map.mpr ⟨block, member, reads⟩

/-- A block has an entry, which its header line heads, or an error, which stands in it. -/
theorem entry_or_error {block : Block} (member : block ∈ source.blocks) :
    (∃ query entry, Query.ofBlock index suffix block = .ok query ∧ entry.query = query ∧
      Block.entry? schema suffix source.origin.moduleName index block = some entry ∧
      entry.HeadedBy (block.site index)) ∨
    ∃ report ∈ (compileModule schema suffix source index).reports, report.isError = true ∧
      report.Inside index block.span := by
  have headed := Layout.block_headed member
  cases reads : Query.ofBlock index suffix block with
  | error report =>
    obtain ⟨isError, inside⟩ := Query.ofBlock_error headed reads
    refine Or.inr ⟨report, report_of_error schema suffix source index member reads, isError, ?_⟩
    exact ⟨inside.sameSource, inside.primary.trans block.lineSpan_inside, fun other refers =>
      ⟨(inside.related other refers).1,
        (inside.related other refers).2.trans block.lineSpan_inside⟩⟩
  | ok query =>
    cases resolves : (query.resolve schema).1 with
    | none =>
      obtain ⟨report, reported, isError⟩ := Query.resolve_error resolves
      exact Or.inr ⟨report, report_of_query schema suffix source index member reads reported,
        isError, Query.resolve_inside headed reads reported⟩
    | some resolved =>
      obtain ⟨rfl, _⟩ := Query.resolve_eq_some_iff.mp resolves
      obtain ⟨sameSource, header, _, _⟩ := Query.ofBlock_inside headed reads
      refine Or.inl ⟨_, ⟨source.origin.moduleName, resolved⟩, rfl, rfl, ?_, ?_⟩
      · simp [Block.entry?, reads, Except.toOption, resolves]
      · exact ⟨sameSource, header.name.trans block.lineSpan_inside_line⟩

end

/-! ## Sources -/

theorem Report.Inside.concerns {report : Report} {source : Nat} {block : Block}
    (inside : report.Inside source block.span) : report.Concerns (block.site source) :=
  Or.inl ⟨inside.sameSource, inside.primary⟩

theorem Report.PointsAt.concerns {report : Report} {site : HeaderSite} {span : Span}
    (points : report.PointsAt site.source span) (inside : span.Inside site.block) :
    report.Concerns site := by
  rcases points with ⟨sameSource, rfl⟩ | ⟨other, refers, sameSource, rfl⟩
  · exact Or.inl ⟨sameSource, inside⟩
  · exact Or.inr ⟨other, refers, sameSource, inside⟩

theorem Block.line_inside (source : Nat) (block : Block) :
    (block.site source).line.Inside (block.site source).block := by
  refine ⟨?_, ?_, ?_, ?_⟩ <;> simp only [site, span, bodySpan] <;> omega

section

variable (schema : Schema) (options : CompileOptions) (sources : List Source)

/-- The entries of all sources, whatever their names. -/
def allEntries : List CatalogEntry :=
  sources.zipIdx.flatMap fun (source, index) =>
    source.blocks.filterMap
      (Block.entry? schema options.streamSuffix source.origin.moduleName index)

/-- The queries of all sources. -/
def allQueries : List Query :=
  sources.zipIdx.flatMap fun (source, index) =>
    source.blocks.filterMap fun block =>
      (Query.ofBlock index options.streamSuffix block).toOption

theorem compile_catalog : (compile schema options sources).catalog =
    Catalog.firstOfName (allEntries schema options sources) := by
  unfold compile merge Catalog.ofModules compileModules allEntries
  rw [List.flatMap_map]
  simp only [entriesOf_compileModule]

theorem mem_compile_reports {report : Report} :
    report ∈ (compile schema options sources).reports ↔
      (∃ source index, (source, index) ∈ sources.zipIdx ∧
        report ∈ (compileModule schema options.streamSuffix source index).reports) ∨
      report ∈ Catalog.duplicateReports (allQueries options sources) := by
  unfold compile merge compileModules Reports.sort allQueries
  rw [(List.mergeSort_perm _ _).mem_iff, List.mem_append, List.flatMap_map, List.flatMap_map]
  simp only [compileModule_declared, List.mem_flatMap, Prod.exists]

theorem mem_allHeaderSites {site : HeaderSite} (member : site ∈ allHeaderSites sources) :
    ∃ source index block, (source, index) ∈ sources.zipIdx ∧ block ∈ source.blocks ∧
      block.site index = site := by
  obtain ⟨⟨source, index⟩, listed, found⟩ := List.mem_flatMap.mp member
  dsimp only at found
  rw [← Layout.ofText_sites] at found
  obtain ⟨block, inSource, rfl⟩ := List.mem_map.mp found
  exact ⟨source, index, block, listed, inSource, rfl⟩

/-- The queries of the entries are queries of the sources, in their order. -/
theorem allEntries_queries : ((allEntries schema options sources).map CatalogEntry.query).Sublist
    (allQueries options sources) := by
  unfold allEntries allQueries
  rw [List.map_flatMap]
  refine List.Sublist.flatMap_right _ fun (source, index) _ => ?_
  -- The entries hold those queries that resolve.
  have kept : (source.blocks.filterMap (Block.entry? schema options.streamSuffix
      source.origin.moduleName index)).map CatalogEntry.query =
      (source.blocks.filterMap fun block =>
        (Query.ofBlock index options.streamSuffix block).toOption).filter
          fun query => (query.resolve schema).1.isSome := by
    rw [List.map_filterMap, List.filter_filterMap]
    refine List.filterMap_congr fun block _ => ?_
    cases reads : Query.ofBlock index options.streamSuffix block with
    | error report => simp [Block.entry?, reads, Except.toOption]
    | ok query =>
      cases resolves : (query.resolve schema).1 with
      | none => simp [Block.entry?, reads, Except.toOption, resolves, Option.filter]
      | some resolved =>
        obtain ⟨rfl, _⟩ := Query.resolve_eq_some_iff.mp resolves
        simp [Block.entry?, reads, Except.toOption, resolves, Option.filter, CatalogEntry.query]
  rw [kept]
  exact List.filter_sublist

/-- A header line without an entry of its own has an error in its block. -/
theorem compile_accounts {site : HeaderSite} (member : site ∈ allHeaderSites sources) :
    (∃ entry ∈ (compile schema options sources).catalog, entry.HeadedBy site) ∨
      ∃ report ∈ (compile schema options sources).reports,
        report.isError = true ∧ report.Concerns site := by
  obtain ⟨source, index, block, listed, inSource, rfl⟩ := mem_allHeaderSites sources member
  rcases entry_or_error schema options.streamSuffix source index inSource with
    ⟨query, entry, _, _, made, heads⟩ | ⟨report, reported, isError, inside⟩
  · have entered : entry ∈ allEntries schema options sources :=
      List.mem_flatMap.mpr ⟨(source, index), listed, List.mem_filterMap.mpr ⟨block, inSource, made⟩⟩
    rw [compile_catalog]
    rcases Catalog.mem_firstOfName_or entered with kept | ⟨earlier, before, shared⟩
    · exact Or.inl ⟨entry, kept, heads⟩
    · have both := (before.map CatalogEntry.query).trans (allEntries_queries schema options sources)
      obtain ⟨report, reported, isError, _, points⟩ :=
        Catalog.duplicateReports_of_pair both shared
      refine Or.inr ⟨report, (mem_compile_reports schema options sources).mpr (Or.inr reported),
        isError, ?_⟩
      rw [heads.source] at points
      exact points.concerns (heads.name.trans (block.line_inside index))
  · refine Or.inr ⟨report, (mem_compile_reports schema options sources).mpr (Or.inl ?_), isError,
      inside.concerns⟩
    exact ⟨source, index, listed, reported⟩

variable (clean : Reports.hasErrors (compile schema options sources).reports = false)
include clean

theorem no_error {report : Report} (reported : report ∈ (compile schema options sources).reports) :
    report.isError = false := by
  have none := List.any_eq_false.mp clean report reported
  simpa using none

/-- Without an error no two queries that resolve share a name. -/
theorem allEntries_nodup :
    ((allEntries schema options sources).map CatalogEntry.name).Nodup := by
  refine List.nodup_iff_sublist.mpr fun name twice => ?_
  obtain ⟨pair, before, names⟩ := List.sublist_map_iff.mp twice
  obtain ⟨a, rest, rfl, aName, names⟩ := List.map_eq_cons_iff.mp names.symm
  obtain ⟨b, rest, rfl, bName, names⟩ := List.map_eq_cons_iff.mp names
  obtain rfl := List.map_eq_nil_iff.mp names
  have both := (before.map CatalogEntry.query).trans (allEntries_queries schema options sources)
  obtain ⟨report, reported, isError, _⟩ :=
    Catalog.duplicateReports_of_pair both (aName.trans bName.symm)
  have harmless := no_error schema options sources clean
    ((mem_compile_reports schema options sources).mpr (Or.inr reported))
  rw [isError] at harmless
  cases harmless

/-- Without an error every block of a source holds a query that has an entry. -/
theorem entry_of_clean {source : Source} {index : Nat} (listed : (source, index) ∈ sources.zipIdx)
    {block : Block} (member : block ∈ source.blocks) :
    ∃ query entry, Query.ofBlock index options.streamSuffix block = .ok query ∧
      entry.query = query ∧
      Block.entry? schema options.streamSuffix source.origin.moduleName index block = some entry ∧
      entry.HeadedBy (block.site index) := by
  rcases entry_or_error schema options.streamSuffix source index member with
    found | ⟨report, reported, isError, _⟩
  · exact found
  · have harmless := no_error schema options sources clean
      ((mem_compile_reports schema options sources).mpr (Or.inl ⟨source, index, listed, reported⟩))
    rw [isError] at harmless
    cases harmless

/-- Without an error every block of a source has its entry, in order. -/
theorem entries_headed {source : Source} {index : Nat} (listed : (source, index) ∈ sources.zipIdx) :
    List.Forall₂ CatalogEntry.HeadedBy
      (source.blocks.filterMap
        (Block.entry? schema options.streamSuffix source.origin.moduleName index))
      (source.blocks.map (Block.site index)) := by
  have each : ∀ block ∈ source.blocks, ∃ entry,
      Block.entry? schema options.streamSuffix source.origin.moduleName index block = some entry ∧
        entry.HeadedBy (block.site index) := by
    intro block member
    obtain ⟨_, entry, _, _, made, heads⟩ :=
      entry_of_clean schema options sources clean listed member
    exact ⟨entry, made, heads⟩
  generalize source.blocks = blocks at each
  induction blocks with
  | nil => exact .nil
  | cons block blocks ih =>
    obtain ⟨entry, made, heads⟩ := each block List.mem_cons_self
    rw [List.filterMap_cons_some made, List.map_cons]
    exact .cons heads (ih fun other member => each other (List.mem_cons_of_mem _ member))

/-- Without an error the catalog is the list of the header lines. -/
theorem compile_complete : List.Forall₂ CatalogEntry.HeadedBy
    (compile schema options sources).catalog (allHeaderSites sources) := by
  rw [compile_catalog,
    Catalog.firstOfName_of_nodup (allEntries_nodup schema options sources clean)]
  have each : ∀ pair ∈ sources.zipIdx, List.Forall₂ CatalogEntry.HeadedBy
      (pair.1.blocks.filterMap
        (Block.entry? schema options.streamSuffix pair.1.origin.moduleName pair.2))
      (headerSites pair.2 0 (lines pair.1.text.toList)) := by
    intro pair listed
    rw [← Layout.ofText_sites]
    exact entries_headed schema options sources clean listed
  unfold allEntries allHeaderSites
  generalize sources.zipIdx = listed at each
  induction listed with
  | nil => exact .nil
  | cons pair listed ih =>
    rw [List.flatMap_cons, List.flatMap_cons]
    refine List.rel_append (each pair List.mem_cons_self) (ih fun other member => ?_)
    exact each other (List.mem_cons_of_mem _ member)

end

/-- No query is dropped. A run without an error gives a catalog of one entry for each header line,
in the order of the sources and then of the text; in every run a header line without an entry of
its own has an error in its block, or one that refers to it. -/
theorem compileUnless_drops_none {cancelled : Bool} {schema : Schema} {options : CompileOptions}
    {sources : List Source} {compilation : Compilation}
    (runs : compileUnless cancelled schema options sources = .ok compilation) :
    (Reports.hasErrors compilation.reports = false →
      List.Forall₂ CatalogEntry.HeadedBy compilation.catalog (allHeaderSites sources)) ∧
    ∀ site ∈ allHeaderSites sources,
      (∃ entry ∈ compilation.catalog, entry.HeadedBy site) ∨
        ∃ report ∈ compilation.reports, report.isError = true ∧ report.Concerns site := by
  unfold compileUnless at runs
  split at runs
  · cases runs
  · cases runs
    exact ⟨compile_complete schema options sources,
      fun _ => compile_accounts schema options sources⟩

/-- A source with one query, and one whose only block has no body. -/
theorem compileUnless_drops_none_each :
    let good : List Source := [⟨.query, "--!q\nselect 1"⟩]
    let bad : List Source := [⟨.query, "--!q\n;"⟩]
    List.Forall₂ CatalogEntry.HeadedBy (compile {} {} good).catalog (allHeaderSites good) ∧
      (compile {} {} good).catalog.map CatalogEntry.name = ["q"] ∧
      allHeaderSites bad = [⟨0, ⟨0, 5⟩, ⟨0, 6⟩⟩] ∧
      ∃ report ∈ (compile {} {} bad).reports,
        report.isError = true ∧ report.Concerns ⟨0, ⟨0, 5⟩, ⟨0, 6⟩⟩ := by
  intro good bad
  have sites : allHeaderSites bad = [⟨0, ⟨0, 5⟩, ⟨0, 6⟩⟩] := by decide +kernel
  have empty : (compile {} {} bad).catalog = [] := by decide +kernel
  have goodRuns : compileUnless false {} {} good = .ok (compile {} {} good) := rfl
  have badRuns : compileUnless false {} {} bad = .ok (compile {} {} bad) := rfl
  refine ⟨?_, by decide +kernel, sites, ?_⟩
  · exact (compileUnless_drops_none goodRuns).1 (by decide +kernel)
  · have listed : ⟨0, ⟨0, 5⟩, ⟨0, 6⟩⟩ ∈ allHeaderSites bad := by
      rw [sites]
      exact List.mem_cons_self
    have accounted := (compileUnless_drops_none badRuns).2 _ listed
    rcases accounted with ⟨entry, kept, _⟩ | failed
    · rw [empty] at kept
      cases kept
    · exact failed

end AnnotatedSql
