import AnnotatedSql.CommandLine.Run
import AnnotatedSql.Proofs.Compilation.Complete
import AnnotatedSql.Proofs.Header.Writing

/-!
# Listings and catalogs name the same queries

A listing has a line for each header that can be read, a catalog an object for each query that
resolves. Without an error both have the queries of the sources, in order.
-/

namespace AnnotatedSql

open Rule

/-! ## Names in a written catalog -/

/-- The name that an object gives itself. -/
def Json.ownName? : Json → Option String
  | .object members =>
    match members.find? (·.key == "name") with
    | some ⟨_, .string text⟩ => some text
    | _ => none
  | _ => none

/-- The names of the objects in an array. -/
def Json.names? : Json → Option (List String)
  | .array items => items.mapM Json.ownName?
  | _ => none

theorem CatalogEntry.ownName_encode (entry : CatalogEntry) :
    entry.encode.ownName? = some entry.name := rfl

theorem Catalog.names_encode (entries : List CatalogEntry) :
    (Catalog.encode entries).names? = some (entries.map CatalogEntry.name) := by
  unfold Catalog.encode Json.names?
  induction entries with
  | nil => rfl
  | cons entry entries ih =>
    dsimp only at ih ⊢
    rw [List.map_cons, List.mapM_cons, ih, CatalogEntry.ownName_encode]
    rfl

/-! ## Names in a listing -/

theorem endsWord_append {first others : List Char} (ends : EndsWord first)
    (next : EndsWord others) : EndsWord (first ++ others) := by
  cases first with
  | nil => exact next
  | cons c first => exact ends

/-- A binding style is written after a name without continuing it, and so is a marker: each is
empty or begins with a blank or a bracket. -/
theorem BindingStyle.endsWord_display (style : BindingStyle) : EndsWord style.display.toList := by
  intro c first
  cases style with
  | implicit => simp [display] at first
  | explicitList names =>
    simp only [display, String.toList_append] at first
    cases first
    rfl
  | positionalOptional kind =>
    cases kind <;> simp only [display, String.toList_append] at first <;> cases first <;> rfl

theorem Descriptor.endsWord_marker (descriptor : Descriptor) :
    EndsWord descriptor.cardinalityMarker.toList := by
  intro c first
  unfold cardinalityMarker at first
  split at first
  · split at first <;> cases first
    rfl
  · cases first
    rfl
  · cases first

namespace CommandLine

/-- What a listing has on one module. -/
structure ModuleListing where
  moduleName : String
  /-- A line for each header. -/
  headers : List String

namespace ModuleListing

/-- The text on the module. -/
def text (listing : ModuleListing) : String :=
  listing.moduleName ++ "\n" ++ String.join listing.headers

/-- What the lines on the module name: the word after the indentation. -/
def names (listing : ModuleListing) : List String :=
  listing.headers.map fun line => String.ofList ((line.toList.drop 2).takeWhile wordChar)

end ModuleListing

/-- The listing of some sources, module by module. -/
def listing (suffix : String) (sources : List Source) : List ModuleListing :=
  sources.zipIdx.map fun (source, index) =>
    { moduleName := source.origin.moduleName
      headers := (parseModule index suffix source.text.toList).queries.map fun query =>
        listedHeader query.descriptor }

/-- The reports of reading some sources. -/
def readingReports (suffix : String) (sources : List Source) : List Report :=
  Reports.sort (sources.zipIdx.flatMap fun (source, index) =>
    (parseModule index suffix source.text.toList).reports)

/-- In a listed header nothing after the name continues it. -/
theorem listedHeader_name (descriptor : Descriptor) : ∃ rest : List Char,
    (listedHeader descriptor).toList = ' ' :: ' ' :: (descriptor.name.toList ++ rest) ∧
      EndsWord rest := by
  have flag : EndsWord (if descriptor.streaming then "  (streaming)" else "").toList := by
    intro c first
    split at first <;> cases first
    rfl
  have feed : EndsWord ['\n'] := by
    intro c first
    cases first
    rfl
  refine ⟨_, ?_, endsWord_append descriptor.bindingStyle.endsWord_display
    (endsWord_append descriptor.endsWord_marker (endsWord_append flag feed))⟩
  simp [listedHeader, Descriptor.display, String.toList_append]

/-- The word after the indentation of a listed header is the name. -/
theorem listedHeader_word {descriptor : Descriptor} (isName : IsIdentifier descriptor.name) :
    String.ofList (((listedHeader descriptor).toList.drop 2).takeWhile wordChar) =
      descriptor.name := by
  obtain ⟨rest, spelled, ends⟩ := listedHeader_name descriptor
  have isWord := List.all_eq_true.mp (all_wordChar isName).2
  have stops : rest.takeWhile wordChar = [] := by
    cases rest with
    | nil => rfl
    | cons c rest => exact List.takeWhile_cons_of_neg (by simp [ends c rfl])
  rw [spelled, List.drop_succ_cons, List.drop_succ_cons, List.drop_zero,
    List.takeWhile_append_of_pos isWord, stops, List.append_nil, String.ofList_toList]

/-! ## Both have all queries -/

/-- The listing names the queries of the sources, in order. -/
theorem listing_names (options : CompileOptions) (sources : List Source) :
    (listing options.streamSuffix sources).flatMap ModuleListing.names =
      (allQueries options sources).map Query.name := by
  unfold listing allQueries
  rw [List.flatMap_map, List.map_flatMap]
  refine List.flatMap_congr fun (source, index) _ => ?_
  dsimp only
  rw [← parseModule_queries options.streamSuffix source index]
  unfold ModuleListing.names
  rw [List.map_map]
  refine List.map_congr_left fun query parsed => ?_
  exact listedHeader_word (canonical_of_parsed parsed).name

variable (schema : Schema) (options : CompileOptions) (sources : List Source)

/-- What is wrong with reading the sources is wrong with compiling them. -/
theorem readingReports_subset :
    readingReports options.streamSuffix sources ⊆ (compile schema options sources).reports := by
  intro report reported
  unfold readingReports Reports.sort at reported
  rw [(List.mergeSort_perm _ _).mem_iff, List.mem_flatMap] at reported
  obtain ⟨⟨source, index⟩, listed, found⟩ := reported
  refine (mem_compile_reports schema options sources).mpr (Or.inl ⟨source, index, listed, ?_⟩)
  exact List.mem_append_left _ found

variable (clean : Reports.hasErrors (compile schema options sources).reports = false)
include clean

/-- Without an error the catalog has the queries of the sources, in order. -/
theorem compile_queries : (compile schema options sources).catalog.map CatalogEntry.query =
    allQueries options sources := by
  rw [compile_catalog, Catalog.firstOfName_of_nodup (allEntries_nodup schema options sources clean)]
  unfold allEntries allQueries
  rw [List.map_flatMap]
  refine List.flatMap_congr fun (source, index) listed => ?_
  rw [List.map_filterMap]
  refine List.filterMap_congr fun block member => ?_
  obtain ⟨query, entry, reads, same, made, _⟩ :=
    entry_of_clean schema options sources clean listed member
  rw [made, reads]
  exact congrArg some same

/-- Without an error a written catalog has the names of the listing, in order. -/
theorem names_encode_compile :
    (Catalog.encode (compile schema options sources).catalog).names? =
      some ((listing options.streamSuffix sources).flatMap ModuleListing.names) := by
  rw [Catalog.names_encode, listing_names, ← compile_queries schema options sources clean,
    List.map_map]
  rfl

theorem readingReports_clean :
    Reports.hasErrors (readingReports options.streamSuffix sources) = false := by
  refine List.any_eq_false.mpr fun report reported => ?_
  rw [no_error schema options sources clean (readingReports_subset schema options sources reported)]
  exact Bool.false_ne_true

end CommandLine

end AnnotatedSql
