import SchemaLint.Field
import SchemaLint.Form
import SchemaLint.Unicode.Word

/-!
# Mappings of results

A mapping document binds columns to properties by the tags `id` and `result`. A binding stands for a
field named after the property, or else after the column, whose type is the one given for the
column. Of an attribute that is repeated the last one counts; comments are passed over.
-/

namespace SchemaLint.Mapping

open Form

/-- The type of a column that is given none. -/
def defaultType : String := "VARCHAR"

/-- What follows the end of a comment, if it ends. -/
def afterComment? : List Char → Option (List Char)
  | '-' :: '-' :: '>' :: s => some s
  | _ :: s => afterComment? s
  | [] => none

/-- A document without its comments; a comment that does not end is none. `skip` counts the
characters that belong to a comment. -/
def dropComments : Nat → List Char → List Char
  | _, [] => []
  | skip + 1, _ :: s => dropComments skip s
  | 0, c :: s =>
    match c, s with
    | '<', '!' :: '-' :: '-' :: body =>
      match afterComment? body with
      | some rest => dropComments (s.length - rest.length) s
      | none => c :: dropComments 0 s
    | _, _ => c :: dropComments 0 s

/-- Reads the tag of a binding and gives what stands in it after its name. -/
def binding : Form (List Char) := do
  let _ ← exact ['<'] ++ oneOf [exact "id".toList, exact "result".toList]
  ahead (!Unicode.isWord ·)
  let attributes ← span (· != '>')
  let _ ← exact ['>']
  return attributes

/-- Reads a value in quotes. -/
def quotedValue (quote : Char) : Form (List Char) := do
  let _ ← exact [quote]
  let value ← span (· != quote)
  let _ ← exact [quote]
  return value

/-- Reads an attribute: its name and its value, without blanks at the ends. -/
def attributePair : Form (List Char × List Char) := do
  let name ← span1 Unicode.isWord
  let _ ← span Text.isBlank ++ exact ['='] ++ span Text.isBlank
  let value ← oneOf [quotedValue '"', quotedValue '\x27']
  return (name, Text.trim value)

/-- The value of the last attribute of a name. -/
def value? (attributes : List (List Char × List Char)) (name : String) : Option (List Char) :=
  (attributes.reverse.find? (·.1 == name.toList)).map (·.2)

/-- The field that a binding stands for. -/
def field? (tag : List Char) : Option Field :=
  let attributes := Form.occurrences (fun _ => attributePair) tag
  let name := (value? attributes "property").or (value? attributes "column")
  let type := ((value? attributes "jdbcType").filter (!·.isEmpty)).map String.ofList
  (name.filter (!·.isEmpty)).map fun name =>
    { name := String.ofList name, type := type.getD defaultType }

/-- The fields that a mapping document binds. -/
def fields (document : String) : List Field :=
  Field.merge [] ((Form.occurrences (fun _ => binding) (dropComments 0 document.toList)).filterMap field?)

end SchemaLint.Mapping
