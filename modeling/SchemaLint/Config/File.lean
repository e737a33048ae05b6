import SchemaLint.Config.Document
import SchemaLint.File.System

/-!
# Configuration files

Paths in a configuration file are relative to the directory of the file.
-/

namespace SchemaLint

/-- Why a configuration file cannot be used. -/
inductive ConfigError where
  /-- The file cannot be read. -/
  | file (e : FileError)
  /-- The document is no configuration. -/
  | malformed
  deriving DecidableEq, Repr

/-- What is said of a configuration file that cannot be used. -/
def ConfigError.message : ConfigError → String
  | file e => "IO error: " ++ e.message
  | malformed => "Parse error: not a configuration document"

namespace Config

/-- The configuration of a file, `cwd` being the working directory. -/
def ofFile {m : Type → Type} [Monad m] (fs : FileSystem m) (cwd path : String) :
    m (Except ConfigError Config) := do
  match ← fs.read path with
  | .error e => return .error (.file e)
  | .ok document =>
    match ofDocument? ((Path.parent? path).getD cwd) document with
    | some c => return .ok c
    | none => return .error .malformed

end Config

end SchemaLint
