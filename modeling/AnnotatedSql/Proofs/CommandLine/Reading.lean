import AnnotatedSql.CommandLine.Run

/-!
# Reading moves nothing

In a file system only writing changes the files. What a command reads is therefore read off the
state in which it starts, and the reading ends in that state.
-/

namespace AnnotatedSql.CommandLine

/-- Files as they are in a state. -/
structure FileSystem (σ : Type) where
  isDirectory : σ → String → Bool
  fileNames : σ → String → Except FileFault (List String)
  read : σ → String → Except FileFault String
  stdin : σ → Except FileFault String
  /-- Writing may change files even where it fails. -/
  write : String → String → σ → Except FileFault Unit × σ

namespace FileSystem

variable {σ : Type} (system : FileSystem σ)

/-- Access to the files of the system. -/
def access : FileAccess (StateM σ) where
  isDirectory path := return system.isDirectory (← get) path
  fileNames path := return system.fileNames (← get) path
  read path := return system.read (← get) path
  write := system.write
  readStdin := return system.stdin (← get)

/-- Access to the files as they are in one state, in which they stay. -/
def frozen (state : σ) : FileAccess Id where
  isDirectory := system.isDirectory state
  fileNames := system.fileNames state
  read := system.read state
  write path text := (system.write path text state).1
  readStdin := system.stdin state

/-- Runs a command on the files of the system. -/
def run (isTerminal : Bool) (command : Command) (state : σ) : Outcome × σ :=
  Id.run ((command.run system.access isTerminal).run state)

/-- The modules that the input names, as they are in the state. -/
def sources (state : σ) (input : QueryInput) : Except CommandFault (List Source) :=
  Id.run (readSources (system.frozen state) input).run

/-- The schema at the path, as it is in the state. -/
def schema (state : σ) (path : String) : Except CommandFault Schema :=
  Id.run (readSchema (system.frozen state) path).run

/-- The modules and the compilation that a request is for. -/
def compiled (state : σ) (request : CompileRequest) :
    Except CommandFault (List Source × Compilation) := do
  let sources ← system.sources state request.input
  let schema ← system.schema state request.schemaPath
  return (sources, compile schema request.options sources)

end FileSystem

/-- A tree of files in memory is a file system. -/
def FileTree.system (stdin : String) : FileSystem FileTree where
  isDirectory := FileTree.isDirectory
  fileNames := FileTree.fileNames
  read := FileTree.read
  stdin _ := .ok stdin
  write path text tree :=
    match tree.write path text with
    | .ok written => (.ok (), written)
    | .error fault => (.error fault, tree)

theorem FileTree.system_write (stdin path text : String) (tree : FileTree) :
    Id.run (((FileTree.access stdin).write path text).run tree) =
      (FileTree.system stdin).write path text tree := by
  simp only [FileTree.access, FileTree.system, StateT.run_bind, StateT.run_get, pure_bind]
  cases tree.write path text <;> rfl

theorem FileTree.system_access (stdin : String) :
    (FileTree.system stdin).access = FileTree.access stdin := by
  have write : (FileTree.system stdin).write = (FileTree.access stdin).write := by
    funext path text tree
    exact (FileTree.system_write stdin path text tree).symm
  unfold FileSystem.access
  rw [write]
  rfl

/-- Running a command on a tree in memory is running it on that file system. -/
theorem FileTree.run_access (stdin : String) (isTerminal : Bool) (command : Command)
    (tree : FileTree) :
    Id.run ((command.run (FileTree.access stdin) isTerminal).run tree) =
      (FileTree.system stdin).run isTerminal command tree := by
  unfold FileSystem.run
  rw [FileTree.system_access]

/-! ## Steps that move nothing -/

section Steps

variable {σ α β : Type} {state : σ}

theorem run_bind (steps : Steps (StateM σ) α) (next : α → Steps (StateM σ) β) (state : σ) :
    Id.run ((steps >>= next).run.run state) =
      match Id.run (steps.run.run state) with
      | (.ok value, after) => Id.run ((next value).run.run after)
      | (.error fault, after) => (.error fault, after) := by
  rw [ExceptT.run_bind, StateT.run_bind, Id.run_bind]
  obtain ⟨fault | value, after⟩ := Id.run (steps.run.run state) <;> rfl

theorem run_bind_still (steps : Steps Id α) (next : α → Steps Id β) :
    Id.run (steps >>= next).run =
      (Id.run steps.run >>= fun value => Id.run (next value).run : Except CommandFault β) := by
  rw [ExceptT.run_bind, Id.run_bind]
  cases Id.run steps.run <;> rfl

theorem run_lift (action : StateM σ α) (state : σ) :
    Id.run ((liftM action : Steps (StateM σ) α).run.run state) =
      (.ok (Id.run (action.run state)).1, (Id.run (action.run state)).2) := by
  change Id.run ((ExceptT.lift action).run.run state) = _
  rw [ExceptT.run_lift, StateT.run_map, Id.run_map]

theorem run_step_still (why : FileFault → CommandFault) (still : Id (Except FileFault α)) :
    Id.run (step why still).run = (Id.run still).mapError why := by
  unfold step
  rw [run_bind_still]
  change ((Except.ok (Id.run still) : Except CommandFault _) >>= _) = _
  cases Id.run still <;> rfl

/-- From the state on, the steps go as others that know no state, and end where they began. -/
def StandsStill (state : σ) (moving : Steps (StateM σ) α) (still : Steps Id α) : Prop :=
  Id.run (moving.run.run state) = (Id.run still.run, state)

theorem standsStill_pure (value : α) :
    StandsStill state (pure value : Steps (StateM σ) α) (pure value) := rfl

theorem standsStill_throw (fault : CommandFault) :
    StandsStill state (throw fault : Steps (StateM σ) α) (throw fault) := rfl

/-- Steps in sequence stand still if each does. -/
theorem StandsStill.bind {moving : Steps (StateM σ) α} {still : Steps Id α}
    {next : α → Steps (StateM σ) β} {next' : α → Steps Id β}
    (first : StandsStill state moving still)
    (others : ∀ value, StandsStill state (next value) (next' value)) :
    StandsStill state (moving >>= next) (still >>= next') := by
  unfold StandsStill at *
  rw [run_bind, run_bind_still, first]
  cases Id.run still.run with
  | error fault => rfl
  | ok value => exact others value

theorem StandsStill.mapM {moving : α → Steps (StateM σ) β} {still : α → Steps Id β}
    (each : ∀ item, StandsStill state (moving item) (still item)) (items : List α) :
    StandsStill state (items.mapM moving) (items.mapM still) := by
  induction items with
  | nil => exact standsStill_pure []
  | cons item items ih =>
    rw [List.mapM_cons, List.mapM_cons]
    apply (each item).bind
    intro first
    apply ih.bind
    intro others
    exact standsStill_pure (first :: others)

/-- A look at the state that leaves it. -/
theorem standsStill_lift {moving : StateM σ α} {still : Id α}
    (looks : Id.run (moving.run state) = (Id.run still, state)) :
    StandsStill state (liftM moving : Steps (StateM σ) α) (liftM still) := by
  unfold StandsStill
  rw [run_lift, looks]
  rfl

theorem standsStill_step {moving : StateM σ (Except FileFault α)} {still : Id (Except FileFault α)}
    (why : FileFault → CommandFault) (looks : Id.run (moving.run state) = (Id.run still, state)) :
    StandsStill state (step why moving) (step why still) := by
  apply (standsStill_lift looks).bind
  intro outcome
  cases outcome with
  | ok value => exact standsStill_pure value
  | error fault => exact standsStill_throw (why fault)

end Steps

/-! ## What commands read -/

namespace FileSystem

variable {σ : Type} (system : FileSystem σ) (state : σ)

theorem read_still (path : String) : Id.run ((system.access.read path).run state) =
    (Id.run ((system.frozen state).read path), state) := rfl

theorem readStdin_still : Id.run (system.access.readStdin.run state) =
    (Id.run (system.frozen state).readStdin, state) := rfl

theorem isDirectory_still (path : String) :
    Id.run ((system.access.isDirectory path).run state) =
      (Id.run ((system.frozen state).isDirectory path), state) := rfl

theorem fileNames_still (path : String) : Id.run ((system.access.fileNames path).run state) =
    (Id.run ((system.frozen state).fileNames path), state) := rfl

theorem readModule_still (path : String) :
    StandsStill state (readModule system.access path) (readModule (system.frozen state) path) := by
  unfold readModule
  apply (standsStill_step _ (system.read_still state path)).bind
  intro text
  exact standsStill_pure _

theorem readSources_still (input : QueryInput) :
    StandsStill state (readSources system.access input)
      (readSources (system.frozen state) input) := by
  unfold readSources
  cases input with
  | missing => exact standsStill_throw .missingQueries
  | text text => exact standsStill_pure _
  | stdin =>
    apply (standsStill_step _ (system.readStdin_still state)).bind
    intro text
    exact standsStill_pure _
  | path path =>
    apply (standsStill_lift (system.isDirectory_still state path)).bind
    intro isDirectory
    cases isDirectory with
    | false =>
      apply (system.readModule_still state path).bind
      intro source
      exact standsStill_pure _
    | true =>
      apply (standsStill_step _ (system.fileNames_still state path)).bind
      intro names
      have each := StandsStill.mapM (fun name => system.readModule_still state (joinPath path name))
        (moduleNames names)
      dsimp only
      by_cases empty : (moduleNames names).isEmpty = true
      · rw [if_pos empty, if_pos empty]
        exact (standsStill_throw (.noModules path)).bind fun _ => each
      · rw [if_neg empty, if_neg empty]
        exact each

/-- What a command lists is read off the state in which it starts. -/
theorem run_readSources (input : QueryInput) :
    Id.run ((readSources system.access input).run.run state) =
      (system.sources state input, state) := system.readSources_still state input

theorem readSchema_still (path : String) :
    StandsStill state (readSchema system.access path) (readSchema (system.frozen state) path) := by
  unfold readSchema
  apply (standsStill_step _ (system.read_still state path)).bind
  intro text
  cases Schema.ofText text.toList with
  | ok schema => exact standsStill_pure schema
  | error fault => exact standsStill_throw _

/-- What a command compiles is read off the state in which it starts. -/
theorem run_compileFor (request : CompileRequest) :
    Id.run ((compileFor system.access request).run.run state) =
      (system.compiled state request, state) := by
  have stands : StandsStill state (compileFor system.access request)
      (compileFor (system.frozen state) request) := by
    apply (system.readSources_still state request.input).bind
    intro sources
    apply (system.readSchema_still state request.schemaPath).bind
    intro schema
    exact standsStill_pure _
  have compiles : Id.run (compileFor (system.frozen state) request).run =
      system.compiled state request := by
    unfold compileFor
    simp only [run_bind_still]
    rfl
  rw [← compiles]
  exact stands

/-- The schema at a path is what the text of the file loads as. -/
theorem schema_of_read {path text : String} {schema : Schema}
    (reads : system.read state path = .ok text) (loads : Schema.ofText text.toList = .ok schema) :
    system.schema state path = .ok schema := by
  have given : Id.run ((system.frozen state).read path) = .ok text := reads
  unfold FileSystem.schema readSchema
  have loaded : ∀ next : String → Except CommandFault Schema,
      (Except.mapError (.unreadableSchema path) (Except.ok text) >>= next) = next text :=
    fun _ => rfl
  rw [run_bind_still, run_step_still, given, loaded, loads]
  rfl

end FileSystem

end AnnotatedSql.CommandLine
