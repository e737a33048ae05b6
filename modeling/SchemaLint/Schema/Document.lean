import SchemaLint.Json.Reader
import SchemaLint.Json.Writer
import SchemaLint.Schema

/-!
# Schema documents

A schema is kept as an object with an entry for each table: the name of its dialect under `type` and
its fields. Reading is lenient. An entry without fields or of an unknown dialect is passed over, an
entry without a dialect is a collection, and a field may be written as its name alone.
-/

namespace SchemaLint

/-- Why a schema document cannot be read. -/
inductive SchemaError where
  /-- The document is no JSON. -/
  | notJson
  /-- The document is no object. -/
  | notAnObject
  deriving DecidableEq, Repr

/-- What is said of a document that cannot be read. -/
def SchemaError.message : SchemaError → String
  | notJson => "Parse error: not a JSON document"
  | notAnObject => "Invalid schema document: top level must be an object keyed by table name"

/-- A field in a document. -/
def Field.toJson (f : Field) : Json.Value :=
  .ofMembers [("name", .ofString f.name), ("type", .ofString f.type)]

/-- A table in a document. -/
def Table.toJson (t : Table) : Json.Value :=
  .ofMembers [("type", .ofString t.dialect.name), ("fields", .array (t.fields.map Field.toJson))]

/-- The field that a value means, a type that is missing or no string being empty. -/
def Field.ofJson? : Json.Value → Option Field
  | .string s => s.map fun name => { name, type := "String" }
  | v => do
    let name ← (← v.get? "name").string?
    return { name, type := ((v.get? "type").bind Json.Value.string?).getD "" }

/-- The table that a value means, if it means one. -/
def Table.ofJson? (v : Json.Value) : Option Table := do
  let fields ← (← v.get? "fields").items?
  let dialect ←
    match (v.get? "type").bind Json.Value.string? with
    | some name => Dialect.read? name
    | none => some .mongodb
  return .ofFields dialect (fields.filterMap Field.ofJson?)

namespace Schema

/-- The document that holds a schema. -/
def toDocument (s : Schema) : String :=
  Json.write (.ofMembers (s.tables.map fun (name, t) => (name, t.toJson)))

/-- Puts the table that an entry of a document means into a schema. -/
def insertEntry (s : Schema) : Json.Text × Json.Value → Schema
  | (some name, v) => (Table.ofJson? v).elim s (s.insert name)
  | (none, _) => s

/-- The schema that a document holds. -/
def ofDocument (document : String) : Except SchemaError Schema :=
  match Json.readDocument? document with
  | none => .error .notJson
  | some v =>
    match v.members? with
    | some entries => .ok (entries.foldl insertEntry .empty)
    | none => .error .notAnObject

end Schema

end SchemaLint
