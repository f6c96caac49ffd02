import AnnotatedSql.Proofs.CommandLine.Listing
import AnnotatedSql.Proofs.CommandLine.Reading

/-!
# Commands agree

A check, a catalog and a listing of the same queries go different ways. They have the same to say
all the same: a catalog is written exactly where the check succeeds, and then the listing has the
names of the catalog.
-/

namespace AnnotatedSql.CommandLine

namespace FileSystem

variable {σ : Type} (system : FileSystem σ) (state : σ)

/-- The queries and the schema can be read, and the compilation counts. -/
def Compiles (request : CompileRequest) : Prop :=
  ∃ sources schema, system.sources state request.input = .ok sources ∧
    system.schema state request.schemaPath = .ok schema ∧
      (compile schema request.options sources).isValid = true

/-- Whatever the text, it can be written to the path. -/
def Writable (path : String) : Prop := ∀ text, (system.write path text state).1 = .ok ()

/-- The text is printed, or it is what the run writes to the output. -/
def Publishes (output : Option String) (text : String) (ran : Outcome × σ) : Prop :=
  match output with
  | none => ran.1.stdout = text ∧ ran.2 = state
  | some path => ran.1.stdout = "" ∧ ran.2 = (system.write path text state).2

/-! ## What the commands do -/

section Runs

variable (isTerminal : Bool)

/-- How a run ends. -/
def ended : Except CommandFault Outcome × σ → Outcome × σ
  | (.ok outcome, after) => (outcome, after)
  | (.error fault, after) => (⟨1, "", fault.line⟩, after)

theorem run_eq (command : Command) : system.run isTerminal command state =
    ended (Id.run ((command.steps system.access isTerminal).run.run state)) := by
  unfold run Command.run
  rw [StateT.run_bind, Id.run_bind]
  obtain ⟨outcome | fault, after⟩ :=
    Id.run ((command.steps system.access isTerminal).run.run state) <;> rfl

theorem run_check (request : CompileRequest) : system.run isTerminal (.check request) state =
    match system.compiled state request with
    | .error fault => (⟨1, "", fault.line⟩, state)
    | .ok (sources, compilation) =>
      (⟨if compilation.isValid then 0 else 1, "",
        printedReports isTerminal request.color sources compilation.reports⟩, state) := by
  rw [run_eq]
  unfold Command.steps runCheck
  rw [run_bind, run_compileFor]
  cases system.compiled state request <;> rfl

/-- A catalog that counts goes to the output. -/
def publish (output : Option String) (text reports : String) : Outcome × σ :=
  match output with
  | none => (⟨0, text, reports⟩, state)
  | some path =>
    match system.write path text state with
    | (.ok (), after) => (⟨0, "", reports⟩, after)
    | (.error fault, after) =>
      (⟨1, "", reports ++ (CommandFault.unwritable path fault).line⟩, after)

theorem run_catalog (request : CompileRequest) (output : Option String) (compact : Bool) :
    system.run isTerminal (.catalog request output compact) state =
      match system.compiled state request with
      | .error fault => (⟨1, "", fault.line⟩, state)
      | .ok (sources, compilation) =>
        let reports := printedReports isTerminal request.color sources compilation.reports
        if compilation.isValid then
          system.publish state output (catalogText compact compilation.catalog) reports
        else (⟨1, "", reports⟩, state) := by
  rw [run_eq]
  unfold Command.steps runCatalog
  rw [run_bind, run_compileFor]
  cases system.compiled state request with
  | error fault => rfl
  | ok pair =>
    obtain ⟨sources, compilation⟩ := pair
    dsimp only
    unfold Compilation.catalogIfValid
    by_cases valid : compilation.isValid = true
    · rw [if_pos valid, if_pos valid]
      cases output with
      | none => rfl
      | some path =>
        dsimp only [publish]
        rw [run_bind, run_lift]
        have written : Id.run ((system.access.write path
            (catalogText compact compilation.catalog)).run state) =
              system.write path (catalogText compact compilation.catalog) state := rfl
        rw [written]
        obtain ⟨⟨⟩ | fault, after⟩ :=
          system.write path (catalogText compact compilation.catalog) state <;> rfl
    · rw [if_neg valid, if_neg valid]
      rfl

theorem run_parse (input : QueryInput) (suffix : String) (color : ColorChoice) :
    system.run isTerminal (.parse input suffix color) state =
      match system.sources state input with
      | .error fault => (⟨1, "", fault.line⟩, state)
      | .ok sources =>
        (⟨if Reports.hasErrors (readingReports suffix sources) then 1 else 0,
          String.join ((listing suffix sources).map ModuleListing.text),
          printedReports isTerminal color sources (readingReports suffix sources)⟩, state) := by
  rw [run_eq]
  unfold Command.steps runParse
  rw [run_bind, run_readSources]
  cases system.sources state input with
  | error fault => rfl
  | ok sources =>
    unfold readingReports listing
    dsimp only
    rw [List.flatMap_map, List.map_map, List.map_map]
    rfl

end Runs

/-! ## What they have in common -/

theorem compiled_of_read {request : CompileRequest} {sources : List Source} {schema : Schema}
    (read : system.sources state request.input = .ok sources)
    (given : system.schema state request.schemaPath = .ok schema) :
    system.compiled state request = .ok (sources, compile schema request.options sources) := by
  unfold compiled
  rw [read, given]
  rfl

theorem compiles_iff {request : CompileRequest} : system.Compiles state request ↔
    ∃ sources compilation, system.compiled state request = .ok (sources, compilation) ∧
      compilation.isValid = true := by
  constructor
  · intro ⟨sources, schema, read, given, valid⟩
    exact ⟨sources, _, system.compiled_of_read state read given, valid⟩
  · intro ⟨sources, compilation, compiled, valid⟩
    unfold FileSystem.compiled at compiled
    obtain ⟨found, read, compiled⟩ := bind_success compiled
    obtain ⟨schema, given, compiled⟩ := bind_success compiled
    cases compiled
    exact ⟨sources, schema, read, given, valid⟩

/-- A request that does not compile fails in the same way, whatever is to be done with it. -/
theorem run_refused (isTerminal : Bool) {request : CompileRequest}
    (fails : ¬system.Compiles state request) : ∃ reports,
      system.run isTerminal (.check request) state = (⟨1, "", reports⟩, state) ∧
      ∀ output compact, system.run isTerminal (.catalog request output compact) state =
        (⟨1, "", reports⟩, state) := by
  simp only [run_check, run_catalog]
  cases outcome : system.compiled state request with
  | error fault => exact ⟨fault.line, rfl, fun _ _ => rfl⟩
  | ok pair =>
    obtain ⟨sources, compilation⟩ := pair
    have invalid : ¬compilation.isValid = true := fun valid =>
      fails ((system.compiles_iff state).mpr ⟨sources, compilation, outcome, valid⟩)
    dsimp only
    rw [if_neg invalid]
    exact ⟨_, rfl, fun _ _ => if_neg invalid⟩

/-- A request that compiles is reported on and published. -/
theorem run_compiles (isTerminal : Bool) {request : CompileRequest} {sources : List Source}
    {schema : Schema} (read : system.sources state request.input = .ok sources)
    (given : system.schema state request.schemaPath = .ok schema)
    (valid : (compile schema request.options sources).isValid = true) : ∃ reports,
      system.run isTerminal (.check request) state = (⟨0, "", reports⟩, state) ∧
      ∀ output compact, system.run isTerminal (.catalog request output compact) state =
        system.publish state output
          (catalogText compact (compile schema request.options sources).catalog) reports := by
  simp only [run_check, run_catalog, system.compiled_of_read state read given]
  rw [if_pos valid]
  exact ⟨_, rfl, fun _ _ => if_pos valid⟩

theorem publish_publishes (output : Option String) (text reports : String) :
    system.Publishes state output text (system.publish state output text reports) := by
  cases output with
  | none => exact ⟨rfl, rfl⟩
  | some path =>
    unfold Publishes publish
    dsimp only
    obtain ⟨⟨⟩ | fault, after⟩ := system.write path text state <;> exact ⟨rfl, rfl⟩

/-- Only a failure to write is reported and fails. -/
theorem publish_of_writable {output : Option String} (text reports : String)
    (writable : ∀ path, output = some path → system.Writable state path) :
    (system.publish state output text reports).1.stderr = reports ∧
      (system.publish state output text reports).1.exitCode = 0 := by
  cases output with
  | none => exact ⟨rfl, rfl⟩
  | some path =>
    have succeeds := writable path rfl text
    unfold publish
    dsimp only
    generalize system.write path text state = written at succeeds
    obtain ⟨outcome, after⟩ := written
    cases succeeds
    exact ⟨rfl, rfl⟩

/-- A check, a catalog and a listing of one request agree. -/
structure Agree (request : CompileRequest) (output : Option String) (compact : Bool)
    (check catalog parse : Outcome × σ) : Prop where
  /-- The reports are the same, unless the catalog cannot be written. -/
  stderr : (∀ path, output = some path → system.Writable state path) →
    catalog.1.stderr = check.1.stderr
  exitCode : (∀ path, output = some path → system.Writable state path) →
    (catalog.1.exitCode = 0 ↔ check.1.exitCode = 0)
  succeeds : check.1.exitCode = 0 ↔ system.Compiles state request
  /-- Nothing is printed or written of a catalog that does not count. -/
  refused : ¬system.Compiles state request → catalog.1.stdout = "" ∧ catalog.2 = state
  /-- The catalog is written as an array, and the listing has its names. -/
  listed : check.1.exitCode = 0 → parse.1.exitCode = 0 ∧
    ∃ sources schema, system.sources state request.input = .ok sources ∧
      system.schema state request.schemaPath = .ok schema ∧
      let json := Catalog.encode (compile schema request.options sources).catalog
      let modules := listing request.options.streamSuffix sources
      system.Publishes state output ((if compact then json.compact else json.pretty) ++ "\n")
        catalog ∧
      parse.1.stdout = String.join (modules.map ModuleListing.text) ∧
      json.names? = some (modules.flatMap ModuleListing.names)

/-- The commands agree. For the same files and options a check and a catalog report the same and
succeed alike, if the catalog can be written; without a valid compilation the catalog is not printed
and no file changes; and where the check succeeds the listing has the names of the catalog. -/
theorem commands_agree (isTerminal : Bool) (request : CompileRequest) (output : Option String)
    (compact : Bool) (color : ColorChoice) :
    system.Agree state request output compact
      (system.run isTerminal (.check request) state)
      (system.run isTerminal (.catalog request output compact) state)
      (system.run isTerminal (.parse request.input request.options.streamSuffix color) state) := by
  by_cases compiles : system.Compiles state request
  · obtain ⟨sources, schema, read, given, valid⟩ := compiles
    obtain ⟨reports, checks, publishes⟩ :=
      system.run_compiles state isTerminal read given valid
    have clean : Reports.hasErrors (compile schema request.options sources).reports = false := by
      simp [Compilation.isValid] at valid
      exact valid.1
    have readable : Reports.hasErrors (readingReports request.options.streamSuffix sources) =
        false := readingReports_clean schema request.options sources clean
    rw [checks, publishes, run_parse, read]
    exact {
      stderr := fun writable => (system.publish_of_writable state _ _ writable).1
      exitCode := fun writable =>
        iff_of_true (system.publish_of_writable state _ _ writable).2 rfl
      succeeds := iff_of_true rfl ⟨sources, schema, read, given, valid⟩
      refused := fun fails => absurd ⟨sources, schema, read, given, valid⟩ fails
      listed := fun _ => ⟨by simp [readable], sources, schema, read, given,
        system.publish_publishes state output _ _, rfl,
        names_encode_compile schema request.options sources clean⟩ }
  · obtain ⟨reports, checks, refuses⟩ := system.run_refused state isTerminal compiles
    rw [checks, refuses]
    exact {
      stderr := fun _ => rfl
      exitCode := fun _ => Iff.rfl
      succeeds := iff_of_false Nat.one_ne_zero compiles
      refused := fun _ => ⟨rfl, rfl⟩
      listed := fun succeeds => absurd succeeds Nat.one_ne_zero }

/-- Two queries given in place, of which the second streams, with the schema in a tree of files in
memory. -/
theorem commands_agree_two :
    let tree : FileTree := { files := [(["s"], "\x7b\x7d")] }
    let run (command : Command) :=
      Id.run ((command.run (FileTree.access "") false).run tree)
    let input : QueryInput := .text "--!a\nselect 1\n--!b_stream\nselect 2"
    let request : CompileRequest := ⟨input, "s", {}, .never⟩
    let catalog := run (.catalog request none true)
    let parse := run (.parse input "_stream" .never)
    catalog.1.exitCode = 0 ∧ parse.1.exitCode = 0 ∧
      parse.1.stdout = "<query>\n  a\n  b_stream  (streaming)\n" ∧
      ∃ json : Json, catalog.1.stdout = json.compact ++ "\n" ∧
        json.names? = some ["a", "b_stream"] := by
  intro tree run input request catalog parse
  let system := FileTree.system ""
  have parts : pathParts "s" = ["s"] := by
    unfold pathParts String.splitOn
    rw [if_neg (by decide), String.splitOnAux, if_neg (by decide +kernel),
      if_neg (by decide +kernel), String.splitOnAux, if_pos (by decide +kernel)]
    decide +kernel
  have place : tree.place "s" = .ok ["s"] := by
    unfold FileTree.place
    rw [parts]
    rfl
  have reads : system.read tree "s" = .ok "\x7b\x7d" := by
    change tree.read "s" = _
    unfold FileTree.read
    rw [place]
    rfl
  have given : system.schema tree "s" = .ok {} :=
    system.schema_of_read tree reads (by decide +kernel)
  have agree := system.commands_agree tree false request none true .never
  rw [← FileTree.run_access, ← FileTree.run_access, ← FileTree.run_access] at agree
  have succeeds := agree.succeeds.mpr ⟨_, {}, rfl, given, by decide +kernel⟩
  obtain ⟨parses, sources, schema, read, again, published, lists, names⟩ := agree.listed succeeds
  cases read
  refine ⟨(agree.exitCode fun _ none => nomatch none).mpr succeeds, parses, lists.trans ?_, _,
    published.1, names.trans ?_⟩ <;> decide +kernel

end FileSystem

end AnnotatedSql.CommandLine
