import SchemaLint.File.System

/-!
# File trees

A file tree maps places to what is there: a directory, a text, or bytes that are no text. The root
is always a directory. A path leads to a place from a working directory, part by part, and every
part but the last has to be a directory that is there.
-/

namespace SchemaLint

/-- What may be at a place. -/
inductive FileNode where
  | directory
  | text (content : String)
  | bytes (content : List UInt8)
  deriving DecidableEq, Repr

/-- A place as the names that lead to it from the root. -/
abbrev Place := List String

/-- What is at each place. -/
structure FileTree where
  entries : List (Place × FileNode)

namespace FileTree

/-- The tree that has the root only. -/
def empty : FileTree :=
  { entries := [] }

/-- What is at a place. -/
def node? (t : FileTree) (place : Place) : Option FileNode :=
  if place = [] then some .directory else t.entries.lookup place

/-- Puts something at a place. -/
def put (t : FileTree) (place : Place) (node : FileNode) : FileTree :=
  { entries := (place, node) :: t.entries.filter (·.1 != place) }

/-- Leaves a place empty. -/
def erase (t : FileTree) (place : Place) : FileTree :=
  { entries := t.entries.filter (·.1 != place) }

/-- The longest name in bytes. -/
def longestName : Nat := 255

/-- Follows the parts of a path from a place. -/
def follow (t : FileTree) (place : Place) : List String → Except FileError Place
  | [] => .ok place
  | part :: rest =>
    match t.node? place with
    | none => .error .notFound
    | some .directory =>
      if part == "" || part == "." then t.follow place rest
      else if part == ".." then t.follow place.dropLast rest
      else if part.utf8ByteSize > longestName then .error .nameTooLong
      else t.follow (place ++ [part]) rest
    | some _ => .error .notADirectory

/-- The place that a path leads to from a working directory. -/
def place? (t : FileTree) (cwd : Place) (path : String) : Except FileError Place :=
  if path == "" then .error .notFound
  else if path.toList.contains '\x00' then .error .invalidName
  else t.follow (if Path.isAbsolute path then [] else cwd) (Path.segments path)

/-- What a path leads to. -/
def find? (t : FileTree) (cwd : Place) (path : String) : Except FileError (Option FileNode) :=
  (t.place? cwd path).map t.node?

/-- The text of the file at a path. -/
def read (t : FileTree) (cwd : Place) (path : String) : Except FileError String := do
  match ← t.find? cwd path with
  | none => .error .notFound
  | some .directory => .error .isADirectory
  | some (.text content) => .ok content
  | some (.bytes _) => .error .notText

/-- Writes the file at a path. -/
def write (t : FileTree) (cwd : Place) (path content : String) : Except FileError FileTree := do
  let place ← t.place? cwd (Path.withoutLastSlashes path)
  if path.toList.getLast? == some '/' || t.node? place == some .directory then
    .error .isADirectory
  else .ok (t.put place (.text content))

/-- Removes the file at a path. -/
def remove (t : FileTree) (cwd : Place) (path : String) : Except FileError FileTree := do
  let place ← t.place? cwd path
  match t.node? place with
  | none => .error .notFound
  | some .directory => .error .isADirectory
  | some _ => .ok (t.erase place)

/-- Makes the directory at a path. -/
def makeDirectory (t : FileTree) (cwd : Place) (path : String) : Except FileError FileTree := do
  let name := Path.withoutLastSlashes path
  if name == "" && path != "" then .error .alreadyExists
  else
    let place ← t.place? cwd name
    if (t.node? place).isSome then .error .alreadyExists
    else .ok (t.put place .directory)

/-- Tells whether a path leads to a directory. -/
def isDirectory (t : FileTree) (cwd : Place) (path : String) : Bool :=
  match t.find? cwd path with
  | .ok node => node == some .directory
  | .error _ => false

/-- Tells whether a path leads to something. -/
def isPresent (t : FileTree) (cwd : Place) (path : String) : Bool :=
  match t.find? cwd path with
  | .ok node => node.isSome
  | .error _ => false

/-- The places of the files below a place. -/
def filesUnder (t : FileTree) (place : Place) : List Place :=
  t.entries.filterMap fun (p, node) =>
    if node != .directory && place.isPrefixOf p then some p else none

/-- The paths of the files below the directory at a path, or of the file itself. -/
def filesBelow (t : FileTree) (cwd : Place) (path : String) : List String :=
  match t.place? cwd path with
  | .error _ => []
  | .ok place =>
    (t.filesUnder place).map fun p => (p.drop place.length).foldl Path.join path

/-- Takes over the tree that an operation yields. -/
def become (result : FileTree → Except FileError FileTree) :
    StateM FileTree (Except FileError Unit) := do
  match result (← get) with
  | .error e => return .error e
  | .ok t =>
    set t
    return .ok ()

/-- The tree as a file system, seen from a working directory. -/
def system (cwd : Place) : FileSystem (StateM FileTree) where
  read path := return (← get).read cwd path
  write path content := become (·.write cwd path content)
  remove path := become (·.remove cwd path)
  makeDirectory path := become (·.makeDirectory cwd path)
  isDirectory path := return (← get).isDirectory cwd path
  isPresent path := return (← get).isPresent cwd path
  filesBelow path := return (← get).filesBelow cwd path

end FileTree

end SchemaLint
