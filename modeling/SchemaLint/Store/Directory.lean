import SchemaLint.File.System
import SchemaLint.Store.Backend

/-!
# Directory backends

A directory keeps the text of each key in a file of its own. Only keys of plain letters, digits,
underscores and hyphens have a file, so that no key leads out of the directory and no two keys share
a file.
-/

namespace SchemaLint

namespace DirectoryStore

/-- Tells whether a character may stand in a key. -/
def isKeyChar (c : Char) : Bool :=
  c.isAlphanum || c == '_' || c == '-'

/-- Tells whether a key has a file. -/
def isKey (key : String) : Bool :=
  key != "" && key.toList.all isKeyChar

/-- The path of the file of a key. -/
def path (dir key : String) : String :=
  Path.join dir (key ++ ".json")

variable {m : Type → Type} [Monad m]

/-- The text of a key. -/
def load (fs : FileSystem m) (dir key : String) : m (Except StoreError (Option String)) := do
  if isKey key then
    match ← fs.read (path dir key) with
    | .ok text => return .ok (some text)
    | .error .notFound => return .ok none
    | .error e => return .error (.io key e.message)
  else return .error (.invalidKey key)

/-- Writes the text of a key, making the directory if it is missing. -/
def save (fs : FileSystem m) (dir key text : String) : m (Except StoreError Unit) := do
  if isKey key then
    match ← fs.makeDirectories dir with
    | .error e => return .error (.io key e.message)
    | .ok () => return (← fs.write (path dir key) text).mapError fun e => .io key e.message
  else return .error (.invalidKey key)

/-- Removes the file of a key, which need not be there. -/
def remove (fs : FileSystem m) (dir key : String) : m (Except StoreError Unit) := do
  if isKey key then
    match ← fs.remove (path dir key) with
    | .ok () => return .ok ()
    | .error .notFound => return .ok ()
    | .error e => return .error (.io key e.message)
  else return .error (.invalidKey key)

/-- A directory of a file system as a backend. -/
def backend (fs : FileSystem m) (dir : String) : Backend m :=
  { load := load fs dir, save := save fs dir, remove := remove fs dir }

end DirectoryStore

end SchemaLint
