import SchemaLint.Dialect
import SchemaLint.Field

/-!
# Tables

A table or collection has fields whose types are written in a dialect. Edits keep the order of the
fields and say why they fail.
-/

namespace SchemaLint

/-- A table or collection. -/
structure Table where
  dialect : Dialect
  fields : List Field
  deriving DecidableEq, Repr

/-- Why a schema cannot be edited. -/
inductive EditError where
  | emptyFieldName
  | duplicateField (name : String)
  | fieldNotFound (name : String)
  | tableNotFound (name : String)
  deriving DecidableEq, Repr

/-- What is said of an edit that fails. -/
def EditError.message : EditError → String
  | emptyFieldName => "Field name must not be empty"
  | duplicateField name => "Field '" ++ name ++ "' already exists"
  | fieldNotFound name => "Field '" ++ name ++ "' not found"
  | tableNotFound name => "Table '" ++ name ++ "' not found"

namespace Table

/-- The table with the given fields, each name once. -/
def ofFields (dialect : Dialect) (fields : List Field) : Table :=
  { dialect, fields := Field.merge [] fields }

/-- The field of a name. -/
def find? (t : Table) (name : String) : Option Field :=
  Field.find? t.fields name

/-- Tells whether there is a field of a name. -/
def has (t : Table) (name : String) : Bool :=
  Field.has t.fields name

/-- Adds a field at the end. -/
def addField (t : Table) (f : Field) : Except EditError Table :=
  if f.name == "" then .error .emptyFieldName
  else if t.has f.name then .error (.duplicateField f.name)
  else .ok { t with fields := t.fields ++ [f] }

/-- Changes the field of a name. -/
def change (t : Table) (name : String) (f : Field → Field) : Except EditError Table :=
  if t.has name then
    .ok { t with fields := t.fields.map fun g => if g.name == name then f g else g }
  else .error (.fieldNotFound name)

/-- Removes the field of a name. -/
def removeField (t : Table) (name : String) : Except EditError Table :=
  if t.has name then .ok { t with fields := t.fields.filter (·.name != name) }
  else .error (.fieldNotFound name)

/-- Gives a field another name. -/
def renameField (t : Table) (name newName : String) : Except EditError Table :=
  if newName == "" then .error .emptyFieldName
  else if name != newName && t.has newName then .error (.duplicateField newName)
  else t.change name fun f => { f with name := newName }

/-- Gives a field another type. -/
def setFieldType (t : Table) (name type : String) : Except EditError Table :=
  t.change name fun f => { f with type }

end Table

end SchemaLint
