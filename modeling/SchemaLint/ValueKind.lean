import SchemaLint.Text.Ascii
import SchemaLint.Text.Blank

/-!
# Kinds of values

Rules are kept by the kind of value they judge, and one more kind holds the rules for whole lines.
The kind of a field follows from its type by markers in the type's name, so that the types of
tables (`BIGINT`), of documents (`Decimal128`) and of classes (`java.time.Instant`) are understood
alike.
-/

namespace SchemaLint

/-- What a rule judges: the values of a kind, or a line. -/
inductive ValueKind where
  | string
  | number
  | date
  | boolean
  | object
  | array
  /-- Whole lines, whatever their fields. -/
  | line
  deriving DecidableEq, Repr

namespace ValueKind

/-- All kinds, in the order of documents. -/
def all : List ValueKind :=
  [string, number, date, boolean, object, array, line]

/-- The name of a kind in documents. -/
def name : ValueKind → String
  | string => "String"
  | number => "Number"
  | date => "Date"
  | boolean => "Boolean"
  | object => "Object"
  | array => "Array"
  | line => "Syntax"

/-- The kind with exactly the given name in documents. -/
def ofName? (s : String) : Option ValueKind :=
  all.find? (·.name == s)

/-- The kind that a user means. -/
def read? (s : String) : Option ValueKind :=
  all.find? fun k => Text.sameIgnoringCase k.name.toList (Text.trim s.toList)

/-- What is said of a name that means no kind. -/
def unknownMessage (s : String) : String :=
  "unknown value kind '" ++ s ++ "'"

/-- The markers in the names of types, the kinds in the order in which they are tried. -/
def markers : List (ValueKind × List String) :=
  [(array, ["array", "list", "set"]),
   (object, ["object", "map", "document", "json"]),
   (boolean, ["bool", "bit"]),
   (date, ["date", "time"]),
   (string, ["char", "text", "string", "uuid", "clob", "enum"]),
   (number, ["int", "long", "short", "byte", "double", "float", "decimal", "numeric", "number",
     "real"])]

/-- The kind of the values of a field of a type; the values of an unknown type have none. The ids of
documents are written as strings. -/
def ofType? (type : String) : Option ValueKind :=
  let t := Text.lower (Text.trim type.toList)
  if Text.occursIn "objectid".toList t then some string
  else (markers.find? fun (_, ms) => ms.any fun m => Text.occursIn m.toList t).map (·.1)

end ValueKind

end SchemaLint
