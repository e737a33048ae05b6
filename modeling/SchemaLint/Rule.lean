import SchemaLint.Text.Ascii
import SchemaLint.Text.Blank

/-!
# Rules

A rule has a pattern that what it judges must match, and says how grave a mismatch is.
-/

namespace SchemaLint

/-- How grave a finding is. -/
inductive Severity where
  | info
  | warning
  | error
  deriving DecidableEq, Repr

namespace Severity

/-- All severities. -/
def all : List Severity :=
  [info, warning, error]

/-- The name of a severity. -/
def name : Severity → String
  | info => "info"
  | warning => "warning"
  | error => "error"

/-- The severity with exactly the given name. -/
def ofName? (s : String) : Option Severity :=
  all.find? (·.name == s)

/-- The severity that a user means. -/
def read? (s : String) : Option Severity :=
  match String.ofList (Text.lower (Text.trim s.toList)) with
  | "error" => some error
  | "warning" | "warn" => some warning
  | "info" => some info
  | _ => none

end Severity

/-- A rule. -/
structure Rule where
  id : String
  name : String
  description : String
  pattern : String
  /-- What is said of a value that does not match. -/
  message : String
  severity : Severity
  deriving DecidableEq, Repr

end SchemaLint
