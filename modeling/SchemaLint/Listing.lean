import SchemaLint.Report
import SchemaLint.Rule.Document
import SchemaLint.Schema

/-!
# Listings

How tables, rules and reports are printed for a reader.
-/

namespace SchemaLint

namespace Listing

/-- A text with blanks behind it up to a width. -/
def left (width : Nat) (s : String) : String :=
  s ++ String.ofList (List.replicate (width - s.length) ' ')

/-- A text with blanks in front of it up to a width. -/
def right (width : Nat) (s : String) : String :=
  String.ofList (List.replicate (width - s.length) ' ') ++ s

/-- Texts, each on a line of its own. -/
def lines (texts : List String) : String :=
  String.join (texts.map (· ++ "\n"))

/-- A table with its fields. -/
def table (name : String) (t : Table) : String :=
  let heading :=
    "Table " ++ name ++ " (" ++ t.dialect.name ++ ", " ++ toString t.fields.length ++ " fields)"
  lines (heading :: t.fields.map fun f =>
    "  " ++ left 24 f.name ++ " " ++ if f.type == "" then "-" else f.type)

/-- The tables of a schema. -/
def schema (s : Schema) : String :=
  if s.tables.isEmpty then "No tables stored\n"
  else lines (s.tables.map fun (name, t) =>
    left 24 name ++ " " ++ t.dialect.name ++ " " ++ toString t.fields.length ++ " fields")

/-- A rule with where it applies. -/
structure PlacedRule where
  dialect : Dialect
  kind : ValueKind
  rule : Rule
  deriving DecidableEq, Repr

/-- The rules of a table, of one dialect and of one kind if these are given. -/
def placedRules (t : RuleTable) (dialect : Option Dialect) (kind : Option ValueKind) :
    List PlacedRule :=
  (dialect.elim Dialect.all ([·])).flatMap fun d =>
    ((t.buckets d).filter fun (k, _) => kind.all (· == k)).flatMap fun (k, rules) =>
      rules.map fun rule => { dialect := d, kind := k, rule }

/-- Rules, each with its pattern on a second line. -/
def rules (rs : List PlacedRule) : String :=
  if rs.isEmpty then "No rules\n"
  else lines (rs.flatMap fun r =>
    [left 8 r.dialect.name ++ " " ++ r.kind.name ++ " " ++ right 4 r.rule.id ++ "  " ++ r.rule.name ++
      " [" ++ r.rule.severity.name ++ "]",
     left 24 "" ++ r.rule.pattern])

/-- Rules as a document, keys in their order. -/
def rulesDocument (rs : List PlacedRule) : String :=
  Json.write (.array (rs.map fun r => .ofMembers [
    ("dialect", .ofString r.dialect.name),
    ("kind", .ofString r.kind.name),
    ("rule", .ofMembers [
      ("description", .ofString r.rule.description),
      ("id", .ofString r.rule.id),
      ("message", .ofString r.rule.message),
      ("name", .ofString r.rule.name),
      ("pattern", .ofString r.rule.pattern),
      ("severity", .ofString r.rule.severity.name)])]))

/-- A severity as a label. -/
def label : Severity → String
  | .error => "ERROR"
  | .warning => "WARN"
  | .info => "INFO"

/-- A finding. -/
def issue (i : Issue) : String :=
  left 9 "" ++ "[" ++ label i.severity ++ "] " ++ i.code.name ++ ": " ++ i.message

/-- A line of a script with what was found on it; a valid line is listed on demand. -/
def diagnostic (withValid : Bool) (d : Diagnostic) : List String :=
  let place := " " ++ right 4 (toString d.lineNumber) ++ "  " ++ d.content
  if !d.isValid then ("✗" ++ place) :: d.issues.map issue
  else if withValid then ["✓" ++ place]
  else []

/-- A line across the page. -/
def rule : String :=
  String.ofList (List.replicate 60 '=')

/-- A report: its lines and its counts. -/
def report (withValid : Bool) (r : Report) : String :=
  let counts := [
    "  Lines:   " ++ toString r.summary.lines,
    "  Valid:   " ++ toString r.summary.valid,
    "  Invalid: " ++ toString r.summary.invalid]
  let praise := if r.hasInvalidLines then [] else ["", "✓ No issues found!"]
  lines (r.diagnostics.flatMap (diagnostic withValid) ++
    ["", rule, "Script Validation Report", rule, "", "Summary:"] ++ counts ++ praise)

end Listing

end SchemaLint
