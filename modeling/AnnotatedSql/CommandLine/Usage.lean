import AnnotatedSql.Text.Word

/-!
# Options

The options of the commands: how they are written, and what values they take. An option is given
at most once, unless giving it again counts. Arguments are read from left to right; a value may be
attached to its option or follow it.
-/

namespace AnnotatedSql.CommandLine

/-- What an option is for. -/
inductive OptionName
  | query
  | streamSuffix
  | schema
  | strict
  | threads
  | output
  | compact
  | color
  | verbose
  | help
  deriving DecidableEq, Repr

/-- What an option takes. -/
inductive OptionForm
  | flag
  /-- A flag that may be given again. -/
  | count
  /-- A value; one that follows the option may begin with a hyphen only where any text is fine. -/
  | value (anyText : Bool)
  deriving DecidableEq, Repr

/-- How an option is written. -/
structure OptionRule where
  name : OptionName
  /-- The letter after one hyphen. -/
  letter : Option Char
  /-- The word after two hyphens. -/
  word : String
  form : OptionForm
  deriving DecidableEq, Repr

namespace OptionRule

/-- Whether the text after the option may be anything. -/
def takesAnyText (rule : OptionRule) : Bool := rule.form == .value true

/-- The text of a module, given in place. -/
def query : OptionRule := ⟨.query, some 'q', "query", .value true⟩

/-- What the names of streaming queries end with. -/
def streamSuffix : OptionRule := ⟨.streamSuffix, none, "stream-suffix", .value false⟩

/-- The path of the schema. -/
def schema : OptionRule := ⟨.schema, none, "schema", .value false⟩

/-- Warnings fail the command. -/
def strict : OptionRule := ⟨.strict, none, "strict", .flag⟩

/-- How many threads may work. The number never changes an answer. -/
def threads : OptionRule := ⟨.threads, some 'j', "threads", .value false⟩

/-- The path that a catalog is written to. -/
def output : OptionRule := ⟨.output, some 'o', "output", .value false⟩

/-- A catalog is written on one line. -/
def compact : OptionRule := ⟨.compact, none, "compact", .flag⟩

/-- When reports are colored. -/
def color : OptionRule := ⟨.color, none, "color", .value false⟩

/-- More is logged. -/
def verbose : OptionRule := ⟨.verbose, some 'v', "verbose", .count⟩

/-- Help is printed instead. -/
def help : OptionRule := ⟨.help, some 'h', "help", .flag⟩

/-- The options that stand anywhere. -/
def common : List OptionRule := [verbose, help]

/-- The options of all commands. -/
def reading : List OptionRule := common ++ [query, streamSuffix, color]

/-- The options of the commands that compile. -/
def compiling : List OptionRule := reading ++ [schema, strict, threads]

end OptionRule

/-- Why arguments make no command. -/
inductive UsageFault
  /-- Help was asked for. -/
  | help
  | noCommand
  | unknownCommand (text : String)
  | unknownOption (text : String)
  | missingValue (option : OptionName)
  | unneededValue (option : OptionName)
  | repeated (option : OptionName)
  | invalidValue (value : String)
  | unexpectedArgument (text : String)
  | noSchema
  /-- Queries were given both in place and as a path. -/
  | queriesTwice
  deriving DecidableEq, Repr

/-- The options and the argument that were given. -/
structure Settings where
  options : List (OptionName × String) := []
  path : Option String := none
  deriving DecidableEq, Repr

/-- Whether an option accepts a value. Paths are not empty. -/
def isValidValue (name : OptionName) (value : String) : Bool :=
  match name with
  | .schema | .output => value != ""
  | .threads => (numeralBelow? UInt64.size value).isSome
  | .color => ["auto", "always", "never"].contains value
  | _ => true

namespace Settings

/-- The value an option was given first. -/
def value? (settings : Settings) (name : OptionName) : Option String := settings.options.lookup name

/-- Whether an option was given. -/
def has (settings : Settings) (name : OptionName) : Bool := (settings.value? name).isSome

/-- Gives an option. -/
def add (settings : Settings) (rule : OptionRule) (value : String) : Except UsageFault Settings :=
  if rule.name == .help then .error .help
  else if rule.form != .count && settings.has rule.name then .error (.repeated rule.name)
  else if !isValidValue rule.name value then .error (.invalidValue value)
  else .ok { settings with options := settings.options ++ [(rule.name, value)] }

/-- Gives the argument. -/
def addPath (settings : Settings) (path : String) : Except UsageFault Settings :=
  if settings.path.isSome then .error (.unexpectedArgument path)
  else if path == "" then .error (.invalidValue path)
  else .ok { settings with path := some path }

end Settings

/-- The settings so far, and an option whose value is the next argument. -/
abbrev Progress := Settings × Option OptionRule

/-- Reads options by their letters. What follows a letter whose option takes a value is the value,
less an equals sign. -/
def readLetters (rules : List OptionRule) (settings : Settings) :
    List Char → Except UsageFault Progress
  | [] => .ok (settings, none)
  | c :: rest =>
    match rules.find? (·.letter == some c) with
    | none => .error (.unknownOption (String.singleton c))
    | some rule =>
      match rule.form, rest with
      | .value _, [] => .ok (settings, some rule)
      | .value _, '=' :: value => (settings.add rule (String.ofList value)).map (·, none)
      | .value _, value => (settings.add rule (String.ofList value)).map (·, none)
      | _, _ =>
        match settings.add rule "" with
        | .error fault => .error fault
        | .ok settings => readLetters rules settings rest

/-- The text before the first equals sign, and the text after it if there is one. -/
def splitAtEquals (text : List Char) : String × Option String :=
  let word := text.takeWhile (· != '=')
  let rest := text.drop word.length
  (String.ofList word, if rest.isEmpty then none else some (String.ofList (rest.drop 1)))

/-- Reads an option by its word. -/
def readWord (rules : List OptionRule) (settings : Settings) (text : List Char) :
    Except UsageFault Progress :=
  let (word, value) := splitAtEquals text
  match rules.find? (·.word == word) with
  | none => .error (.unknownOption word)
  | some rule =>
    match rule.form, value with
    | .value _, none => .ok (settings, some rule)
    | .value _, some value => (settings.add rule value).map (·, none)
    | _, some _ => .error (.unneededValue rule.name)
    | _, none => (settings.add rule "").map (·, none)

/-- How an argument is written. -/
inductive ArgumentForm
  /-- All arguments after this one are paths. -/
  | separator
  | word (text : List Char)
  | letters (letters : List Char)
  | plain

/-- A single hyphen is no option. -/
def ArgumentForm.of (argument : String) : ArgumentForm :=
  match argument.toList with
  | ['-', '-'] => .separator
  | '-' :: '-' :: more => .word more
  | '-' :: c :: more => .letters (c :: more)
  | _ => .plain

/-- Reads the arguments of a command. `waiting` is an option whose value comes next, and `literal`
says that options are over. -/
def readArguments (rules : List OptionRule) :
    Option OptionRule → Bool → Settings → List String → Except UsageFault Settings
  | none, _, settings, [] => .ok settings
  | some rule, _, _, [] => .error (.missingValue rule.name)
  | none, true, settings, argument :: rest => do
    readArguments rules none true (← settings.addPath argument) rest
  | some rule, literal, settings, argument :: rest =>
    match rule.takesAnyText, ArgumentForm.of argument with
    | true, _ | _, .plain => do
      readArguments rules none literal (← settings.add rule argument) rest
    | _, _ => .error (.missingValue rule.name)
  | none, false, settings, argument :: rest =>
    match ArgumentForm.of argument with
    | .separator => readArguments rules none true settings rest
    | .word text => do
      let (settings, waiting) ← readWord rules settings text
      readArguments rules waiting false settings rest
    | .letters letters => do
      let (settings, waiting) ← readLetters rules settings letters
      readArguments rules waiting false settings rest
    | .plain => do
      readArguments rules none false (← settings.addPath argument) rest

end AnnotatedSql.CommandLine
