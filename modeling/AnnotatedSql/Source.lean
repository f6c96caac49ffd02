import AnnotatedSql.Text.Line

/-!
# Sources

A source is the text of one module and where it came from. The sources of a compilation are a list;
a source is referred to by its index in it.
-/

namespace AnnotatedSql

/-- Where the text of a module came from. -/
inductive Origin
  /-- Text given inline. -/
  | query
  | stdin
  | file (path : String)
  deriving DecidableEq, Repr, Inhabited

/-- The parts of a path between slashes. -/
def pathParts (path : String) : List String :=
  path.splitOn "/"

/-- The name of the file or directory a path leads to. There is none for the root, for a path
that stays where it is, and for one that ends by going up. -/
def fileName? (path : String) : Option String :=
  match ((pathParts path).filter fun part => part != "" && part != ".").getLast? with
  | some ".." => none
  | name => name

/-- A file name cut at its last dot. A dot at the very start does not count. -/
def splitExtension (name : String) : String × Option String :=
  let reversed := name.toList.reverse
  let extension := reversed.takeWhile (· != '.')
  match reversed.drop extension.length with
  | '.' :: stem@(_ :: _) => (String.ofList stem.reverse, some (String.ofList extension.reverse))
  | _ => (name, none)

namespace Origin

/-- How reports refer to the source. -/
def displayName : Origin → String
  | query => "<query>"
  | stdin => "<stdin>"
  | file path => path

/-- The name of the module: for a file, its name without the extension. -/
def moduleName : Origin → String
  | query => "<query>"
  | stdin => "<stdin>"
  | file path =>
    match fileName? path with
    | some name => (splitExtension name).1
    | none => path

end Origin

/-- One module of annotated SQL. -/
structure Source where
  origin : Origin
  text : String
  deriving DecidableEq, Repr, Inhabited

/-- The position of a byte offset in a source of the list. -/
def positionIn (sources : List Source) (source offset : Nat) : Position :=
  Position.ofOffset ((sources[source]?.map fun s => s.text.toList).getD []) offset

end AnnotatedSql
