import SchemaLint.Json.Reader
import SchemaLint.Json.Record
import SchemaLint.Json.Writer
import SchemaLint.Report

/-!
# Report documents

Reports are written with all keys but those that have no value: the rule of a finding that comes
from no rule, and the file of a script that comes from none. Counts are numbers of 64 bits.
-/

namespace SchemaLint

/-- The number that counts in documents stay below. -/
def countLimit : Nat := 1 <<< 64

namespace Issue

/-- The keys of a finding. -/
def keys : List String :=
  ["code", "severity", "message", "rule_id"]

/-- A finding in a document. -/
def toJson (i : Issue) : Json.Value :=
  .ofMembers ([("code", .ofString i.code.name), ("severity", .ofString i.severity.name),
    ("message", .ofString i.message)] ++ (i.ruleId.toList.map fun id => ("rule_id", .ofString id)))

/-- The finding that a value means. -/
def ofJson? (v : Json.Value) : Option Issue := do
  match ← v.record? keys with
  | [some code, some severity, some message, ruleId] =>
    return {
      code := ← code.name?.bind IssueCode.ofName?
      severity := ← severity.name?.bind Severity.ofName?
      message := ← message.string?
      ruleId := ← Json.Value.optionalString? ruleId }
  | _ => none

end Issue

namespace Diagnostic

/-- The keys of a diagnostic. -/
def keys : List String :=
  ["line_number", "content", "target_name", "is_valid", "issues"]

/-- A diagnostic in a document. -/
def toJson (d : Diagnostic) : Json.Value :=
  .ofMembers (keys.zip [.ofNat d.lineNumber, .ofString d.content,
    d.target.elim .null .ofString, .bool d.isValid, .array (d.issues.map Issue.toJson)])

/-- The diagnostic that a value means. -/
def ofJson? (v : Json.Value) : Option Diagnostic := do
  match ← v.record? keys with
  | [some lineNumber, some content, target, some isValid, some issues] =>
    return {
      lineNumber := ← lineNumber.nat? countLimit
      content := ← content.string?
      target := ← Json.Value.optionalString? target
      isValid := ← isValid.bool?
      issues := ← (← issues.items?).mapM Issue.ofJson? }
  | _ => none

end Diagnostic

namespace ReportVersion

/-- The number that versions in documents stay below. -/
def limit : Nat := 1 <<< 32

/-- A version in a document. -/
def toJson (v : ReportVersion) : Json.Value :=
  .ofMembers [("major", .ofNat v.major), ("minor", .ofNat v.minor)]

/-- The version that a value means. -/
def ofJson? (v : Json.Value) : Option ReportVersion := do
  match ← v.record? ["major", "minor"] with
  | [some major, some minor] =>
    return { major := ← major.nat? limit, minor := ← minor.nat? limit }
  | _ => none

end ReportVersion

namespace ReportSummary

/-- The keys of a summary. -/
def keys : List String :=
  ["lines", "valid", "invalid"]

/-- A summary in a document. -/
def toJson (s : ReportSummary) : Json.Value :=
  .ofMembers (keys.zip [.ofNat s.lines, .ofNat s.valid, .ofNat s.invalid])

/-- The summary that a value means. -/
def ofJson? (v : Json.Value) : Option ReportSummary := do
  match ← v.record? keys with
  | [some lines, some valid, some invalid] =>
    return {
      lines := ← lines.nat? countLimit
      valid := ← valid.nat? countLimit
      invalid := ← invalid.nat? countLimit }
  | _ => none

end ReportSummary

namespace Report

/-- The keys of a report. -/
def keys : List String :=
  ["version", "timestamp", "dialect", "summary", "diagnostics", "source"]

/-- A report in a document. -/
def toJson (r : Report) : Json.Value :=
  .ofMembers (keys.zip ([r.version.toJson, .ofString r.timestamp, .ofString r.dialect.name,
    r.summary.toJson, .array (r.diagnostics.map Diagnostic.toJson)] ++
      r.source.toList.map .ofString))

/-- The document that holds a report. -/
def toDocument (r : Report) : String :=
  Json.write r.toJson

/-- The report that a value means. -/
def ofJson? (v : Json.Value) : Option Report := do
  match ← v.record? keys with
  | [some version, some timestamp, some dialect, some summary, some diagnostics, source] =>
    return {
      version := ← ReportVersion.ofJson? version
      timestamp := ← timestamp.string?
      dialect := ← dialect.name?.bind Dialect.ofName?
      summary := ← ReportSummary.ofJson? summary
      diagnostics := ← (← diagnostics.items?).mapM Diagnostic.ofJson?
      source := ← Json.Value.optionalString? source }
  | _ => none

/-- The report that a document holds. -/
def ofDocument? (document : String) : Option Report :=
  (Json.read? document).bind ofJson?

end Report

end SchemaLint
