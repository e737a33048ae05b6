import SchemaLint.Schema.Document
import SchemaLint.Store.Document

/-!
# Stored schemas

A schema is kept as its document under one key and is edited a table or a field at a time.
-/

namespace SchemaLint

/-- A change of a schema. -/
inductive SchemaEdit where
  /-- Puts a table under a name, in place of the one there. -/
  | upsert (table : String) (dialect : Dialect) (fields : List Field)
  | remove (table : String)
  | addField (table : String) (field : Field)
  | removeField (table field : String)
  | renameField (table field newName : String)
  | setFieldType (table field type : String)
  deriving DecidableEq, Repr

namespace Schema

/-- How a schema is kept. -/
def format : DocumentFormat Schema SchemaError :=
  { key := "dbConfig", initial := empty, write := toDocument, read := ofDocument }

/-- Changes a table that must be there. -/
def editTable (s : Schema) (name : String) (change : Table → Except EditError Table) :
    Except EditError Schema :=
  match s.get? name with
  | none => .error (.tableNotFound name)
  | some t => (change t).map (s.insert name)

/-- The schema after an edit. -/
def edit (s : Schema) : SchemaEdit → Except EditError Schema
  | .upsert name dialect fields => .ok (s.insert name (.ofFields dialect fields))
  | .remove name =>
    if (s.get? name).isSome then .ok (s.erase name) else .error (.tableNotFound name)
  | .addField name f => s.editTable name (·.addField f)
  | .removeField name field => s.editTable name (·.removeField field)
  | .renameField name field newName => s.editTable name (·.renameField field newName)
  | .setFieldType name field type => s.editTable name (·.setFieldType field type)

end Schema

/-- Why a step on a stored schema fails. -/
abbrev SchemaFault := StoreFault SchemaError EditError

/-- What is said of a step that fails. -/
def SchemaFault.message (e : SchemaFault) : String :=
  StoreFault.message SchemaError.message EditError.message e

end SchemaLint
