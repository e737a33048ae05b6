/-!
# Fields

A list of fields holds each name once and no empty name. Fields are added at the end; a field whose
name is empty or taken is left out, so the first field of a name stays.
-/

namespace SchemaLint

/-- A field of a table or collection. -/
structure Field where
  name : String
  /-- The type as it is written; it may be empty. -/
  type : String
  deriving DecidableEq, Repr

namespace Field

/-- The field of a list that has a name. -/
def find? (fields : List Field) (name : String) : Option Field :=
  fields.find? (·.name == name)

/-- Tells whether a list has a field of a name. -/
def has (fields : List Field) (name : String) : Bool :=
  fields.any (·.name == name)

/-- Tells whether a field can be added to a list. -/
def isNew (fields : List Field) (f : Field) : Bool :=
  f.name != "" && !has fields f.name

/-- Adds a field if that is possible. -/
def add (fields : List Field) (f : Field) : List Field :=
  if isNew fields f then fields ++ [f] else fields

/-- Adds several fields in turn. -/
def merge (fields more : List Field) : List Field :=
  more.foldl add fields

end Field

end SchemaLint
