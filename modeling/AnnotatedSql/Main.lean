import AnnotatedSql.CommandLine.Run

/-!
# The program

Commands on the files of a disk. All that a command decides is in `CommandLine.run`; here are only
the effects.
-/

namespace AnnotatedSql.CommandLine.Disk

/-- Whether the system gave the error number, which comes with either sign. -/
def isNumber (code number : UInt32) : Bool := code == number || code == -number

/-- Why an operation of the system failed. -/
def fault (error : IO.Error) : FileFault :=
  match error with
  | .noFileOrDirectory .. => .notFound
  | .inappropriateType _ code _ =>
    if isNumber code 20 then .notDirectory
    else if isNumber code 21 then .isDirectory
    else .other (toString error)
  | _ => .other (toString error)

/-- The result of an operation that may fail. -/
def attempt {α : Type} (action : IO α) : IO (Except FileFault α) := do
  match ← action.toBaseIO with
  | .ok value => return .ok value
  | .error error => return .error (fault error)

/-- Bytes as text, if they are UTF-8. -/
def decode (bytes : ByteArray) : Except FileFault String :=
  match String.fromUTF8? bytes with
  | some text => .ok text
  | none => .error .notText

/-- The names of what lies in a directory and is no directory. -/
def fileNames (path : String) : IO (List String) := do
  let entries ← (System.mkFilePath [path]).readDir
  let files ← entries.filterM fun entry => return !(← entry.path.isDir)
  return (files.map fun entry => entry.fileName).toList

/-- All that is left of a stream. -/
partial def drain (stream : IO.FS.Stream) (bytes : ByteArray) : IO ByteArray := do
  let more ← stream.read 65536
  if more.isEmpty then return bytes else drain stream (bytes ++ more)

/-- Access to the files of the disk and to standard input. -/
def access : FileAccess IO where
  isDirectory path := (System.mkFilePath [path]).isDir
  fileNames path := attempt (fileNames path)
  read path := return (← attempt (IO.FS.readBinFile path)) >>= decode
  write path text := attempt (IO.FS.writeFile path text)
  readStdin := return (← attempt (do drain (← IO.getStdin) .empty)) >>= decode

end AnnotatedSql.CommandLine.Disk

/-- Runs the command that the arguments ask for, prints what it prints, and ends as it ends. -/
def main (arguments : List String) : IO UInt32 := do
  let stderr ← IO.getStderr
  let isTerminal ← stderr.isTty
  let files := AnnotatedSql.CommandLine.Disk.access
  let outcome ← AnnotatedSql.CommandLine.run files isTerminal arguments
  IO.print outcome.stdout
  stderr.putStr outcome.stderr
  return outcome.exitCode.toUInt32
