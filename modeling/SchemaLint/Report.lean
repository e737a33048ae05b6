import SchemaLint.Diagnostic
import SchemaLint.Dialect

/-!
# Reports

A report holds the diagnostics of a script and counts them. It says in which version of the form it
is written, when and for which dialect.
-/

namespace SchemaLint

/-- The version of the form of reports. -/
structure ReportVersion where
  major : Nat
  minor : Nat
  deriving DecidableEq, Repr

namespace ReportVersion

/-- The version that is written. -/
def current : ReportVersion :=
  { major := 1, minor := 0 }

/-- A version in words. -/
def text (v : ReportVersion) : String :=
  toString v.major ++ "." ++ toString v.minor

end ReportVersion

/-- How many lines there are. -/
structure ReportSummary where
  lines : Nat
  valid : Nat
  invalid : Nat
  deriving DecidableEq, Repr

/-- A report. -/
structure Report where
  version : ReportVersion
  timestamp : String
  dialect : Dialect
  summary : ReportSummary
  diagnostics : List Diagnostic
  /-- The file of the script. -/
  source : Option String
  deriving DecidableEq, Repr

/-- Counts diagnostics. -/
def ReportSummary.ofDiagnostics (ds : List Diagnostic) : ReportSummary :=
  let valid := ds.countP (·.isValid)
  { lines := ds.length
    valid
    invalid := ds.length - valid }

namespace Report

/-- The report on a script. -/
def ofDiagnostics (timestamp : String) (dialect : Dialect) (ds : List Diagnostic)
    (source : Option String) : Report :=
  { version := .current
    timestamp
    dialect
    summary := .ofDiagnostics ds
    diagnostics := ds
    source }

/-- Tells whether some line is invalid. -/
def hasInvalidLines (r : Report) : Bool :=
  0 < r.summary.invalid

end Report

end SchemaLint
