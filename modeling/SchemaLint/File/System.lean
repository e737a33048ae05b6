import SchemaLint.File.Path

/-!
# File systems

What a program does with files may fail and has effects, so a file system is given by its operations
in a monad. Making a directory together with those above it is derived from making one directory:
the nearest directory that can be made comes first, and what is a directory already is left alone.
-/

namespace SchemaLint

/-- Why a file operation fails. -/
inductive FileError where
  | notFound
  | alreadyExists
  | notADirectory
  | isADirectory
  /-- A part of the path is longer than a name can be. -/
  | nameTooLong
  /-- The path has a character that no path can have. -/
  | invalidName
  /-- The file holds no text. -/
  | notText
  /-- What the system says of another failure. -/
  | other (reason : String)
  deriving DecidableEq, Repr

/-- What is said of a file operation that fails. -/
def FileError.message : FileError → String
  | notFound => "No such file or directory (os error 2)"
  | alreadyExists => "File exists (os error 17)"
  | notADirectory => "Not a directory (os error 20)"
  | isADirectory => "Is a directory (os error 21)"
  | nameTooLong => "File name too long (os error 36)"
  | invalidName => "file name contained an unexpected NUL byte"
  | notText => "stream did not contain valid UTF-8"
  | other reason => reason

/-- The operations on files by path. -/
structure FileSystem (m : Type → Type) where
  /-- The text of a file. -/
  read : String → m (Except FileError String)
  /-- Makes a text the whole of a file, which need not be there. -/
  write : String → String → m (Except FileError Unit)
  /-- Removes a file. -/
  remove : String → m (Except FileError Unit)
  /-- Makes a directory in one that is there. -/
  makeDirectory : String → m (Except FileError Unit)
  isDirectory : String → m Bool
  isPresent : String → m Bool
  /-- The paths of the files below a directory, or of a file itself. -/
  filesBelow : String → m (List String)

namespace FileSystem

/-- The same file system in another monad. -/
def map {m n : Type → Type} (fs : FileSystem m) (lift : {α : Type} → m α → n α) : FileSystem n where
  read path := lift (fs.read path)
  write path text := lift (fs.write path text)
  remove path := lift (fs.remove path)
  makeDirectory path := lift (fs.makeDirectory path)
  isDirectory path := lift (fs.isDirectory path)
  isPresent path := lift (fs.isPresent path)
  filesBelow path := lift (fs.filesBelow path)

variable {m : Type → Type} [Monad m]

/-- Makes a directory unless there is one. -/
def makeUnlessThere (fs : FileSystem m) (path : String) : m (Except FileError Unit) := do
  match ← fs.makeDirectory path with
  | .ok () => return .ok ()
  | .error e => if ← fs.isDirectory path then return .ok () else return .error e

/-- Makes a directory unless there is one, and first those of the given paths above it that are
missing. -/
def makeBelow (fs : FileSystem m) : List String → String → m (Except FileError Unit)
  | [], path => if path == "" then return .ok () else fs.makeUnlessThere path
  | next :: rest, path => do
    if path == "" then return .ok ()
    match ← fs.makeUnlessThere path with
    | .error .notFound =>
      match ← fs.makeBelow rest next with
      | .ok () => fs.makeUnlessThere path
      | .error e => return .error e
    | outcome => return outcome

/-- Makes a directory and the directories above it unless they are there. -/
def makeDirectories (fs : FileSystem m) (path : String) : m (Except FileError Unit) :=
  fs.makeBelow (Path.parents path) path

end FileSystem

end SchemaLint
