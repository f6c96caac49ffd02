import AnnotatedSql.Source

/-!
# Files

Commands reach files through a small set of operations, which may be those of a disk or those of a
tree of files in memory. Paths are written with slashes and lead from the working directory.
-/

namespace AnnotatedSql.CommandLine

/-- Why a file cannot be read or written. -/
inductive FileFault
  | notFound
  /-- A part of the path that should be a directory is a file. -/
  | notDirectory
  | isDirectory
  | notText
  | other (message : String)
  deriving DecidableEq, Repr

/-- The fault in the words of the system. -/
def FileFault.message : FileFault → String
  | notFound => "No such file or directory (os error 2)"
  | notDirectory => "Not a directory (os error 20)"
  | isDirectory => "Is a directory (os error 21)"
  | notText => "stream did not contain valid UTF-8"
  | other message => message

/-- The operations on files that commands need. -/
structure FileAccess (m : Type → Type) where
  isDirectory : String → m Bool
  /-- The names of the files in a directory, without its subdirectories. -/
  fileNames : String → m (Except FileFault (List String))
  read : String → m (Except FileFault String)
  write : String → String → m (Except FileFault Unit)
  readStdin : m (Except FileFault String)

/-- The path of a file in a directory. -/
def joinPath (directory name : String) : String :=
  if directory.toList.getLast? == some '/' then directory ++ name else directory ++ "/" ++ name

/-- A tree of files in memory. Paths are lists of names from the root. -/
structure FileTree where
  files : List (List String × String) := []
  /-- Directories that may be empty. Those of files need not be listed. -/
  directories : List (List String) := []
  deriving DecidableEq, Repr

namespace FileTree

/-- The text of the file at a place. -/
def textAt? (tree : FileTree) (place : List String) : Option String := tree.files.lookup place

/-- Whether there is a directory at a place: the root, or what leads to a file or directory. -/
def isDirectoryAt (tree : FileTree) (place : List String) : Bool :=
  place.isEmpty || tree.directories.any place.isPrefixOf ||
    tree.files.any fun (other, _) => other != place && place.isPrefixOf other

/-- Follows the parts of a path from a directory. The place it leads to need not exist, but all
before it has to. Nothing is known outside the tree. -/
def follow (tree : FileTree) (place : List String) : List String → Except FileFault (List String)
  | [] => .ok place
  | part :: rest =>
    if part == "" || part == "." then follow tree place rest
    else if part == ".." then
      if place.isEmpty then .error .notFound else follow tree place.dropLast rest
    else
      let next := place ++ [part]
      if rest.isEmpty then .ok next
      else if tree.isDirectoryAt next then follow tree next rest
      else if (tree.textAt? next).isSome then .error .notDirectory
      else .error .notFound

/-- Whether the path starts at the root of a disk. -/
def isAbsolute (path : String) : Bool := path.toList.head? == some '/'

/-- The place that a path leads to. -/
def place (tree : FileTree) (path : String) : Except FileFault (List String) :=
  if isAbsolute path || path == "" then .error .notFound else tree.follow [] (pathParts path)

/-- Whether a path leads to a directory. -/
def isDirectory (tree : FileTree) (path : String) : Bool :=
  match tree.place path with
  | .ok place => tree.isDirectoryAt place
  | .error _ => false

/-- The name of a file that lies directly in the directory at a place. -/
def nameIn? (place other : List String) : Option String :=
  match other.reverse with
  | name :: parents => if parents.reverse == place then some name else none
  | [] => none

/-- The names of the files in the directory that a path leads to. -/
def fileNames (tree : FileTree) (path : String) : Except FileFault (List String) := do
  let place ← tree.place path
  if tree.isDirectoryAt place then return tree.files.filterMap fun (other, _) => nameIn? place other
  else .error (if (tree.textAt? place).isSome then .notDirectory else .notFound)

/-- The text of the file that a path leads to. -/
def read (tree : FileTree) (path : String) : Except FileFault String := do
  let place ← tree.place path
  if tree.isDirectoryAt place then .error .isDirectory
  else
    match tree.textAt? place with
    | some text => return text
    | none => .error .notFound

/-- The tree with a text at a place. -/
def put (tree : FileTree) (place : List String) (text : String) : FileTree :=
  { tree with files := tree.files.filter (·.1 != place) ++ [(place, text)] }

/-- Writes a file into a directory that exists. A path that ends in a slash is none of a file. -/
def write (tree : FileTree) (path text : String) : Except FileFault FileTree := do
  let parts := pathParts path
  let named := (parts.reverse.dropWhile (· == "")).reverse
  let place ← if isAbsolute path || path == "" then .error .notFound else tree.follow [] named
  if parts.getLast? == some "" || tree.isDirectoryAt place then .error .isDirectory
  else return tree.put place text

/-- Access to a tree of files, with the given text on standard input. -/
def access (stdin : String) : FileAccess (StateM FileTree) where
  isDirectory path := return (← get).isDirectory path
  fileNames path := return (← get).fileNames path
  read path := return (← get).read path
  write path text := do
    match (← get).write path text with
    | .ok tree =>
      set tree
      return .ok ()
    | .error fault => return .error fault
  readStdin := return .ok stdin

end FileTree

end AnnotatedSql.CommandLine
