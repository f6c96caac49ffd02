import AnnotatedSql.CommandLine.Command
import AnnotatedSql.CommandLine.Files
import AnnotatedSql.Diagnostic.Rendering
import AnnotatedSql.Schema.Reader

/-!
# Running commands

A command reads its queries, then its schema, and then works without files; only a catalog may be
written to one. The first thing that cannot be read ends the command. Reports go to standard error.
-/

namespace AnnotatedSql.CommandLine

/-- What a command prints, and how it ends. -/
structure Outcome where
  exitCode : Nat
  stdout : String
  stderr : String
  deriving DecidableEq, Repr

/-- Why a command ends early. -/
inductive CommandFault
  | missingQueries
  | unreadableStdin (fault : FileFault)
  | unreadableQueries (path : String) (fault : FileFault)
  | noModules (directory : String)
  | unreadableSchema (path : String) (fault : FileFault)
  | invalidSchema (path text : String) (fault : SchemaLoadFault)
  | unwritable (path : String) (fault : FileFault)

namespace CommandFault

private def quoted (path : String) : String := "'" ++ path ++ "'"

/-- The fault in words. -/
def message : CommandFault → String
  | missingQueries =>
    "queries are required: use a positional path, - for stdin, or -q/--query"
  | unreadableStdin fault => "failed to read stdin: " ++ fault.message
  | unreadableQueries path fault => "failed to read " ++ quoted path ++ ": " ++ fault.message
  | noModules directory => "no .sql files found in " ++ quoted directory
  | unreadableSchema path fault =>
    "failed to read schema " ++ quoted path ++ ": " ++ fault.message
  | invalidSchema path text fault =>
    "invalid schema " ++ quoted path ++ ": " ++ fault.message text.toList
  | unwritable path fault => "failed to write " ++ quoted path ++ ": " ++ fault.message

/-- The line that a command which ends early prints last. -/
def line (fault : CommandFault) : String := "error: " ++ fault.message ++ "\n"

end CommandFault

variable {m : Type → Type} [Monad m]

/-- Steps of a command, which may end it early. -/
abbrev Steps (m : Type → Type) (α : Type) := ExceptT CommandFault m α

/-- A step whose fault ends the command. -/
def step {α : Type} (why : FileFault → CommandFault) (action : m (Except FileFault α)) :
    Steps m α := do
  match ← (action : m _) with
  | .ok value => return value
  | .error fault => throw (why fault)

/-- Reads one module. -/
def readModule (files : FileAccess m) (path : String) : Steps m Source := do
  return ⟨.file path, ← step (.unreadableQueries path) (files.read path)⟩

/-- Whether a file holds a module. -/
def isModuleName (name : String) : Bool := (splitExtension name).2 == some "sql"

/-- The modules among the files of a directory, in order of their names. -/
def moduleNames (names : List String) : List String :=
  (names.filter isModuleName).mergeSort fun a b => decide (a ≤ b)

/-- Reads the modules that a command works on. -/
def readSources (files : FileAccess m) : QueryInput → Steps m (List Source)
  | .missing => throw .missingQueries
  | .text text => return [⟨.query, text⟩]
  | .stdin => do
    return [⟨.stdin, ← step .unreadableStdin files.readStdin⟩]
  | .path path => do
    if ← (files.isDirectory path : m _) then
      let names := moduleNames (← step (.unreadableQueries path) (files.fileNames path))
      if names.isEmpty then throw (.noModules path)
      names.mapM fun name => readModule files (joinPath path name)
    else return [← readModule files path]

/-- Reads a schema. -/
def readSchema (files : FileAccess m) (path : String) : Steps m Schema := do
  let text ← step (.unreadableSchema path) (files.read path)
  match Schema.ofText text.toList with
  | .ok schema => return schema
  | .error fault => throw (.invalidSchema path text fault)

/-- Compiles what a command asks for. -/
def compileFor (files : FileAccess m) (request : CompileRequest) :
    Steps m (List Source × Compilation) := do
  let sources ← readSources files request.input
  let schema ← readSchema files request.schemaPath
  return (sources, compile schema request.options sources)

/-- The reports of a compilation as they are printed. -/
def printedReports (isTerminal : Bool) (color : ColorChoice) (sources : List Source)
    (reports : List Report) : String :=
  Reports.render sources (color.isColored isTerminal) reports

/-- Checks queries. -/
def runCheck (files : FileAccess m) (isTerminal : Bool) (request : CompileRequest) :
    Steps m Outcome := do
  let (sources, compilation) ← compileFor files request
  return { exitCode := if compilation.isValid then 0 else 1, stdout := ""
           stderr := printedReports isTerminal request.color sources compilation.reports }

/-- A catalog as it is written. -/
def catalogText (compact : Bool) (entries : List CatalogEntry) : String :=
  let json := Catalog.encode entries
  (if compact then json.compact else json.pretty) ++ "\n"

/-- Writes a catalog to standard output or to a file. Nothing is written if it does not count. -/
def runCatalog (files : FileAccess m) (isTerminal : Bool) (request : CompileRequest)
    (output : Option String) (compact : Bool) : Steps m Outcome := do
  let (sources, compilation) ← compileFor files request
  let reports := printedReports isTerminal request.color sources compilation.reports
  match compilation.catalogIfValid, output with
  | .error _, _ => return ⟨1, "", reports⟩
  | .ok entries, none => return ⟨0, catalogText compact entries, reports⟩
  | .ok entries, some path =>
    match ← (files.write path (catalogText compact entries) : m _) with
    | .ok () => return ⟨0, "", reports⟩
    | .error fault => return ⟨1, "", reports ++ (CommandFault.unwritable path fault).line⟩

/-- A header in the listing of its module. -/
def listedHeader (descriptor : Descriptor) : String :=
  "  " ++ descriptor.display ++ (if descriptor.streaming then "  (streaming)" else "") ++ "\n"

/-- The name of a module and its headers. -/
def listedModule (source : Source) (parsed : ParsedModule) : String :=
  source.origin.moduleName ++ "\n" ++
    String.join (parsed.queries.map fun query => listedHeader query.descriptor)

/-- Lists the headers of all modules. -/
def runParse (files : FileAccess m) (isTerminal : Bool) (input : QueryInput)
    (streamSuffix : String) (color : ColorChoice) : Steps m Outcome := do
  let sources ← readSources files input
  let parsed := sources.zipIdx.map fun (source, index) =>
    (source, parseModule index streamSuffix source.text.toList)
  let reports := Reports.sort (parsed.flatMap fun (_, found) => found.reports)
  return { exitCode := if Reports.hasErrors reports then 1 else 0
           stdout := String.join (parsed.map fun (source, found) => listedModule source found)
           stderr := printedReports isTerminal color sources reports }

/-- The steps of a command. -/
def Command.steps (files : FileAccess m) (isTerminal : Bool) : Command → Steps m Outcome
  | .check request => runCheck files isTerminal request
  | .catalog request output compact => runCatalog files isTerminal request output compact
  | .parse input streamSuffix color => runParse files isTerminal input streamSuffix color

/-- Runs a command. One that ends early prints why. -/
def Command.run (files : FileAccess m) (isTerminal : Bool) (command : Command) : m Outcome := do
  match ← (command.steps files isTerminal).run with
  | .ok outcome => return outcome
  | .error fault => return ⟨1, "", fault.line⟩

/-- How the commands are used. -/
def usage : String :=
  "Commands:\n" ++
  "  check QUERIES --schema FILE [--strict]\n" ++
  "  catalog QUERIES --schema FILE [-o FILE] [--compact] [--strict]\n" ++
  "  parse QUERIES\n" ++
  "QUERIES is a module, a directory of modules, - for stdin, or -q TEXT.\n"

/-- The outcome of arguments that make no command. -/
def UsageFault.outcome : UsageFault → Outcome
  | .help => ⟨0, usage, ""⟩
  | _ => ⟨2, "", usage⟩

/-- Runs the command that the arguments ask for. -/
def run (files : FileAccess m) (isTerminal : Bool) (arguments : List String) : m Outcome :=
  match Command.ofArguments arguments with
  | .ok command => command.run files isTerminal
  | .error fault => return fault.outcome

end AnnotatedSql.CommandLine
