import SchemaLint.Text.Ascii
import SchemaLint.Text.Blank

/-!
# Dialects

A script is written in one of two languages: SQL statements, or calls of collection methods. Names
of dialects are read without regard to ASCII case.
-/

namespace SchemaLint

/-- The language of a script. -/
inductive Dialect where
  /-- SQL statements on tables. -/
  | mysql
  /-- Shell calls on collections. -/
  | mongodb
  deriving DecidableEq, Repr

namespace Dialect

/-- All dialects, in the order of documents. -/
def all : List Dialect :=
  [mysql, mongodb]

/-- The name of a dialect in documents. -/
def name : Dialect → String
  | mysql => "MySQL"
  | mongodb => "MongoDB"

/-- The dialect with exactly the given name in documents. -/
def ofName? (s : String) : Option Dialect :=
  all.find? (·.name == s)

/-- The dialect that a user means. -/
def read? (s : String) : Option Dialect :=
  match String.ofList (Text.lower (Text.trim s.toList)) with
  | "mysql" | "sql" => some mysql
  | "mongodb" | "mongo" => some mongodb
  | _ => none

/-- What is said of a name that means no dialect. -/
def unknownMessage (s : String) : String :=
  "unknown dialect '" ++ s ++ "', expected MySQL or MongoDB"

end Dialect

end SchemaLint
