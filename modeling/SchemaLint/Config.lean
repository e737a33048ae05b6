import SchemaLint.Ancestry
import SchemaLint.Dialect
import SchemaLint.File.Path

/-!
# Configurations

A configuration says in which dialect scripts are written, where schemas and rules are stored, how
far ancestors of a class are followed and which checks are made. Paths in it are relative to its
root.
-/

namespace SchemaLint

/-- What a project sets for all commands. -/
structure Config where
  /-- The dialect when a command names none. -/
  dialect : Dialect
  /-- The directory of the stored schemas and rules. -/
  storeDirectory : String
  /-- The largest number of ancestors that are followed above a class. -/
  maxDepth : Nat
  /-- The directories in which sources of ancestors are looked for. -/
  searchDirectories : List String
  /-- Whether to ask for sources that are not found. -/
  prompts : Bool
  /-- Whether lines are checked for balance and the shape of statements. -/
  structuralChecks : Bool
  /-- The directory that paths are relative to. -/
  root : String
  deriving DecidableEq, Repr

namespace Config

/-- What holds where nothing is set. -/
def default (root : String) : Config :=
  { dialect := .mysql, storeDirectory := ".scriptrefly", maxDepth := AncestorWalk.defaultMaxDepth,
    searchDirectories := [], prompts := true, structuralChecks := true, root }

/-- What a path that may be relative means. -/
def resolve (c : Config) (path : String) : String :=
  Path.join c.root path

/-- The path of the stored schemas and rules. -/
def storePath (c : Config) : String :=
  c.resolve c.storeDirectory

end Config

end SchemaLint
