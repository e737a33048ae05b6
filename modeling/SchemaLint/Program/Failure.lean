import SchemaLint.Config.File
import SchemaLint.Rule.Store
import SchemaLint.Schema.Store

/-!
# Failures

Why a command fails, in words. What fails below a file that the user named is told as its cause.
-/

namespace SchemaLint

/-- Why a command fails. -/
inductive Failure where
  | config (e : ConfigError)
  | schema (e : SchemaFault)
  | rules (e : RuleFault)
  /-- A file that the user named cannot be read. -/
  | unreadable (file : String) (e : FileError)
  /-- A file that the user named cannot be written. -/
  | unwritable (file : String) (e : FileError)
  /-- The file of a report cannot be written. -/
  | report (e : FileError)
  | noFields (file : String)
  | noBindings (file : String)
  | noClassName (file : String)
  | tableNotStored (name : String)
  deriving DecidableEq, Repr

namespace Failure

/-- A failure with the cause below it. -/
def because (what : String) (e : FileError) : String :=
  what ++ "\n\nCaused by:\n    " ++ e.message

/-- What is said of a command that fails. -/
def message : Failure → String
  | config e => e.message
  | schema e => SchemaFault.message e
  | rules e => RuleFault.message e
  | unreadable file e => because ("Failed to read " ++ file) e
  | unwritable file e => because ("Failed to write " ++ file) e
  | report e => e.message
  | noFields file => "No fields found in " ++ file
  | noBindings file => "No <id> or <result> bindings found in " ++ file
  | noClassName file => "No class name found in " ++ file ++ "; pass --table"
  | tableNotStored name => "Table '" ++ name ++ "' is not stored"

end Failure

end SchemaLint
