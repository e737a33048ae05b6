import SchemaLint.Program
import SchemaLint.Text.Instant
import Std.Time.DateTime.Timestamp

/-!
# The program on a machine

The files, the channels and the clock of the machine as a host.
-/

namespace SchemaLint

namespace Machine

/-- What the system says of a failure. -/
def systemMessage (code : UInt32) (details : String) : String :=
  details.capitalize ++ " (os error " ++ toString code ++ ")"

/-- Why a file operation failed. -/
def fileError : IO.Error → FileError
  | .noFileOrDirectory .. => .notFound
  | .alreadyExists .. => .alreadyExists
  | .inappropriateType _ code _ => if code == 21 then .isADirectory else .notADirectory
  | .permissionDenied _ code details => .other (systemMessage code details)
  | .invalidArgument _ code details => .other (systemMessage code details)
  | .resourceExhausted _ code details => .other (systemMessage code details)
  | e => .other (toString e)

/-- Does what may fail. -/
def guarded {α : Type} (action : IO α) : IO (Except FileError α) := do
  try return .ok (← action)
  catch e => return .error (fileError e)

/-- The text of a file. -/
def read (path : String) : IO (Except FileError String) := do
  match ← guarded (IO.FS.readBinFile path) with
  | .error e => return .error e
  | .ok bytes => return ((String.fromUTF8? bytes).map .ok).getD (.error .notText)

/-- What is known of the file or directory at a path, if there is one. -/
def metadata? (path : String) : IO (Option IO.FS.Metadata) := do
  try return some (← (← IO.FS.realPath path).metadata)
  catch _ => return none

/-- Tells whether there is a directory at a path. -/
def isDirectory (path : String) : IO Bool :=
  return (← metadata? path).any (·.type == .dir)

/-- The paths of the files below a directory, or of a file itself. -/
partial def filesBelow (path : String) : IO (List String) := do
  match ← metadata? path with
  | none => return []
  | some found =>
    if found.type == .file then return [path]
    else if found.type == .dir then
      let entries ← guarded do (← IO.FS.realPath path).readDir
      match entries with
      | .error _ => return []
      | .ok entries =>
        return (← entries.toList.mapM fun e => filesBelow (Path.join path e.fileName)).flatten
    else return []

/-- The files of the machine. -/
def files : FileSystem IO where
  read := read
  write path text := guarded (IO.FS.writeFile path text)
  remove path := guarded (IO.FS.removeFile path)
  makeDirectory path := guarded (IO.FS.createDir path)
  isDirectory := isDirectory
  isPresent path := return (← metadata? path).isSome
  filesBelow := filesBelow

/-- Prints to a channel at once. -/
def printTo (channel : IO.FS.Stream) (s : String) : IO Unit := do
  channel.putStr s
  channel.flush

/-- The next line that is typed in. -/
def readLine : IO (Option String) := do
  try
    let line ← (← IO.getStdin).getLine
    return if line.isEmpty then none else some line
  catch _ => return none

/-- The time. -/
def now : IO String := do
  let t ← Std.Time.Timestamp.now
  return Text.instant t.val.second.val.toNat t.val.nano.val.toNat

/-- The machine as a host. -/
def host : Host IO where
  files := files
  cwd := return (← IO.currentDir).toString
  readLine := readLine
  print s := do printTo (← IO.getStdout) s
  tell s := do printTo (← IO.getStderr) s
  now := now

end Machine

end SchemaLint

/-- Runs the program with the arguments of its call. -/
def main (args : List String) : IO UInt32 := do
  return (← SchemaLint.Program.run SchemaLint.Machine.host args).code.toUInt32
