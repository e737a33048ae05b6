import SchemaLint.Dialect
import SchemaLint.Rule
import SchemaLint.ValueKind

/-!
# Commands

What a user may ask for: a schema is extracted from a class or a mapping, a script is validated, and
the stored rules and tables are looked at and changed.
-/

namespace SchemaLint

/-- What may be asked about the stored rules. -/
inductive RulesCommand where
  | list (dialect : Option Dialect) (kind : Option ValueKind) (asJson : Bool)
  /-- Writes the document to a file, or prints it. -/
  | write (output : Option String)
  /-- Takes over the document of a file. -/
  | replace (file : String)
  | reset
  | add (dialect : Dialect) (kind : ValueKind) (rule : Rule)
  | remove (dialect : Dialect) (kind : ValueKind) (id : String)
  deriving DecidableEq, Repr

/-- What may be asked about the stored tables. -/
inductive SchemaCommand where
  | list
  | describe (table : String)
  /-- Writes the document to a file, or prints it. -/
  | write (output : Option String)
  /-- Takes over the document of a file. -/
  | replace (file : String)
  | remove (table : String)
  deriving DecidableEq, Repr

/-- What a user asks for. -/
inductive Command where
  /-- Stores the table of a class, completed by its ancestors, whose sources may be asked for. -/
  | extractClass (file : String) (table : Option String) (dialect : Option Dialect) (asks : Bool)
  /-- Stores the table of a mapping. -/
  | extractMapping (file table : String) (dialect : Option Dialect)
  /-- Judges a script and may write a report. -/
  | validate (script : String) (dialect : Option Dialect) (output : Option String)
  | rules (command : RulesCommand)
  | schema (command : SchemaCommand)
  deriving DecidableEq, Repr

/-- A command with what is set for all commands. -/
structure Invocation where
  /-- The configuration file that is named. -/
  config : Option String
  isVerbose : Bool
  command : Command
  deriving DecidableEq, Repr

end SchemaLint
