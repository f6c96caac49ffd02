import AnnotatedSql.CommandLine.Usage
import AnnotatedSql.Compilation

/-!
# Commands

What the arguments ask for: to check queries, to write their catalog, or to list their headers.
-/

namespace AnnotatedSql.CommandLine

/-- Where queries come from. -/
inductive QueryInput
  | text (text : String)
  | stdin
  | path (path : String)
  | missing
  deriving DecidableEq, Repr

/-- When reports are colored. -/
inductive ColorChoice
  /-- On a terminal. -/
  | auto
  | always
  | never
  deriving DecidableEq, Repr

/-- Whether reports are colored, given whether they go to a terminal. -/
def ColorChoice.isColored (choice : ColorChoice) (isTerminal : Bool) : Bool :=
  match choice with
  | auto => isTerminal
  | always => true
  | never => false

/-- What to compile, and how. -/
structure CompileRequest where
  input : QueryInput
  schemaPath : String
  options : CompileOptions
  color : ColorChoice
  deriving DecidableEq, Repr

/-- What the program is asked to do. -/
inductive Command
  /-- Reports on the queries. -/
  | check (request : CompileRequest)
  /-- Writes the catalog of the queries, to a file if one is given. -/
  | catalog (request : CompileRequest) (output : Option String) (compact : Bool)
  /-- Lists the headers. -/
  | parse (input : QueryInput) (streamSuffix : String) (color : ColorChoice)
  deriving DecidableEq, Repr

namespace Settings

/-- The queries that are given in place or by a path; a single hyphen is standard input. -/
def input (settings : Settings) : Except UsageFault QueryInput :=
  match settings.value? .query, settings.path with
  | some _, some _ => .error .queriesTwice
  | some text, none => .ok (.text text)
  | none, some "-" => .ok .stdin
  | none, some path => .ok (.path path)
  | none, none => .ok .missing

/-- The suffix of streaming queries, that of compilations if none is given. -/
def streamSuffix (settings : Settings) : String :=
  (settings.value? .streamSuffix).getD ({} : CompileOptions).streamSuffix

/-- When reports are to be colored. Without the option they are on a terminal. -/
def color (settings : Settings) : ColorChoice :=
  match settings.value? .color with
  | some "always" => .always
  | some "never" => .never
  | _ => .auto

/-- What to compile. A schema has to be given. -/
def compileRequest (settings : Settings) : Except UsageFault CompileRequest := do
  let input ← settings.input
  match settings.value? .schema with
  | none => .error .noSchema
  | some schemaPath =>
    return { input, schemaPath, color := settings.color
             options := { streamSuffix := settings.streamSuffix, strict := settings.has .strict } }

end Settings

namespace Command

/-- The names of the commands. -/
def names : List String := ["check", "catalog", "parse", "help"]

/-- Help is asked for on all commands or on one. -/
def helpFault : List String → UsageFault
  | [] => .help
  | [name] => if names.contains name then .help else .unknownCommand name
  | _ :: name :: _ => .unknownCommand name

/-- The command with the given name and arguments. -/
def ofName (name : String) (arguments : List String) : Except UsageFault Command :=
  let read (rules : List OptionRule) := readArguments rules none false {} arguments
  match name with
  | "check" => do
    let settings ← read OptionRule.compiling
    return .check (← settings.compileRequest)
  | "catalog" => do
    let settings ← read (OptionRule.compiling ++ [OptionRule.output, OptionRule.compact])
    return .catalog (← settings.compileRequest) (settings.value? .output) (settings.has .compact)
  | "parse" => do
    let settings ← read OptionRule.reading
    return .parse (← settings.input) settings.streamSuffix settings.color
  | "help" => .error (helpFault arguments)
  | _ => .error (.unknownCommand name)

/-- The command that the arguments ask for. Only common options stand before its name. -/
def ofArguments : List String → Except UsageFault Command
  | [] => .error .noCommand
  | argument :: rest =>
    match ArgumentForm.of argument with
    | .separator => .error (.unexpectedArgument argument)
    | .word text => do
      let _ ← readWord OptionRule.common {} text
      ofArguments rest
    | .letters letters => do
      let _ ← readLetters OptionRule.common {} letters
      ofArguments rest
    | .plain => ofName argument rest

end Command

end AnnotatedSql.CommandLine
