import SchemaLint.Balance
import SchemaLint.Diagnostic
import SchemaLint.Rule.Compiled
import SchemaLint.Schema
import SchemaLint.Script

/-!
# Validation of scripts

Each line of a script that is not blank is judged by itself. A line whose target is not known is
judged no further. Otherwise its fields are looked up in the table, the values written to them are
judged by the rules for the kinds of the fields, and the line by the rules for lines and by its
structure. In a document `_id` is always known, and a dotted path counts as its first segment, whose
value is not judged.
-/

namespace SchemaLint

/-- What scripts are judged by. -/
structure Validator where
  dialect : Dialect
  schema : Schema
  rules : CompiledRules
  /-- Whether quotes, brackets and the shape of statements are checked. -/
  checksStructure : Bool

namespace Validator

/-- The validator of a dialect for a schema and a table of rules. -/
def ofTable (dialect : Dialect) (schema : Schema) (table : RuleTable) (checksStructure : Bool) :
    Validator :=
  { dialect, schema, rules := .ofTable table dialect, checksStructure }

/-- What a target is called. -/
def targetNoun : Dialect → String
  | .mysql => "table"
  | .mongodb => "collection"

/-- The name under which a field is looked up, if it is. -/
def schemaName? (d : Dialect) (field : String) : Option String :=
  match d with
  | .mysql => some field
  | .mongodb =>
    if field == "_id" then none
    else some (String.ofList (field.toList.takeWhile (· != '.')))

/-- The names of fields that a table does not have, each once. -/
def unknownFields (d : Dialect) (t : Table) (fields : List String) : List String :=
  ((fields.filterMap (schemaName? d)).filter fun name => !t.has name).eraseDups

/-- What is found about the fields of a line. -/
def fieldIssues (v : Validator) (t : Table) (p : Footprint) : List Issue :=
  match unknownFields v.dialect t p.fields with
  | [] => []
  | names => [.plain .fieldUnknown ("fields not in schema: " ++ ", ".intercalate names)]

/-- Tells whether the values of a field are judged: not those inside a document. -/
def judgesValuesOf (d : Dialect) (field : String) : Bool :=
  !(d == .mongodb && field.toList.contains '.')

/-- What is found about a value written to a field; `null` is a value of any kind. -/
def valueIssue? (v : Validator) (t : Table) (field value : String) : Option Issue := do
  if !judgesValuesOf v.dialect field || Text.sameIgnoringCase value.toList "null".toList then none
  let f ← t.find? field
  let kind ← ValueKind.ofType? f.type
  let r ← v.rules.firstFailure? kind value
  return .ofRule .typeMismatch r ("field '" ++ field ++ "' value " ++ value ++ " " ++ r.message)

/-- What is found about the values of a line. -/
def valueIssues (v : Validator) (t : Table) (p : Footprint) : List Issue :=
  p.values.filterMap fun (field, value) => v.valueIssue? t field value

/-- What the rules for lines find. -/
def lineIssues (v : Validator) (line : String) : List Issue :=
  (v.rules.lineFailures line).map fun r => .ofRule .syntaxViolation r r.message

/-- What is found about the structure of a line. -/
def structureIssues (v : Validator) (line : List Char) : List Issue :=
  if v.checksStructure then
    let delimiters := (unbalanced (statementOf line)).map (·.message)
    let problems := (shapeProblems v.dialect line).map (·.message)
    (delimiters ++ problems).map (.plain .syntaxViolation)
  else []

/-- What is found on a line. -/
def issues (v : Validator) (line : String) (p : Footprint) : List Issue :=
  match p.target with
  | none => [.plain .targetUnrecognized "target not recognized"]
  | some target =>
    match v.schema.target? target with
    | none =>
      let message := targetNoun v.dialect ++ " '" ++ target ++ "' is not defined in the schema"
      [.plain .targetUnknown message]
    | some t =>
      v.fieldIssues t p ++ v.valueIssues t p ++ v.lineIssues line ++ v.structureIssues line.toList

/-- Judges a line, the blanks at whose ends do not count. -/
def judge (v : Validator) (lineNumber : Nat) (line : List Char) : Diagnostic :=
  let p := footprint v.dialect line
  let line := String.ofList line
  ((Diagnostic.ofLine lineNumber line).withTarget p.target).pushAll (v.issues line p)

/-- The lines of a script that are judged: those that are not blank, without blanks at the ends. -/
def scriptLines (script : List Char) : List (List Char) :=
  ((Text.lines script).map Text.trim).filter (!·.isEmpty)

/-- Judges a script, line by line. -/
def validate (v : Validator) (script : String) : List Diagnostic :=
  ((scriptLines script.toList).zipIdx 1).map fun (line, n) => v.judge n line

end Validator

end SchemaLint
