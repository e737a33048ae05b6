import SchemaLint.Form
import SchemaLint.Unicode.Word

/-!
# Forms of SQL statements

A statement begins with its verb, modifiers and table; what comes after is left to be read by
clause. Keywords may be in any case. A name is a run of word characters and `$`, backquoted or not,
and may be qualified by dots.
-/

namespace SchemaLint.Sql

open Form

/-- Reads a backquote. -/
def tick : Form (List Char) :=
  char (· == '\x60')

/-- Characters of a name. -/
def isNameChar (c : Char) : Bool :=
  Unicode.isWord c || c == '$'

/-- Reads a name segment with the backquotes around it, if any. -/
def segment : Form (List Char) :=
  opt tick ++ span1 isNameChar ++ opt tick

/-- Reads a dot with blanks around it. -/
def dot : Form (List Char) :=
  blanks ++ exact ['.'] ++ blanks

/-- Reads a name with its qualifiers. -/
def name : Form (List Char) :=
  segment ++ star (dot ++ segment)

/-- Reads words of a list, each with blanks after it. -/
def modifiers (words : List String) : Form (List Char) :=
  star (oneOf (words.map word) ++ blanks1)

/-- A statement cut into its table and what comes after it. -/
inductive Statement where
  /-- `UPDATE table SET body`. -/
  | update (table body : List Char)
  /-- `INSERT INTO table body` or `REPLACE INTO table body`. -/
  | insert (table body : List Char)
  /-- `DELETE FROM table body`. -/
  | delete (table body : List Char)
  /-- `SELECT body`. -/
  | select (body : List Char)
  deriving DecidableEq, Repr

/-- Reads the words `AS` and an alias, or an alias alone. -/
def otherName : Form (List Char) :=
  blanks1 ++ opt (word "AS" ++ blanks1) ++ span1 Unicode.isWord

/-- Reads an `UPDATE` statement. -/
def updateForm : Form Statement := do
  let _ ← word "UPDATE" ++ blanks1 ++ modifiers ["LOW_PRIORITY", "IGNORE"]
  let table ← name
  let _ ← opt otherName ++ blanks1 ++ word "SET" ++ blanks1
  return .update table (← rest)

/-- Reads an `INSERT` or `REPLACE` statement. -/
def insertForm : Form Statement := do
  let _ ← oneOf [word "INSERT", word "REPLACE"] ++ blanks1 ++
    modifiers ["LOW_PRIORITY", "DELAYED", "HIGH_PRIORITY", "IGNORE"] ++ word "INTO" ++ blanks1
  let table ← name
  return .insert table (← rest)

/-- Reads a `DELETE` statement. -/
def deleteForm : Form Statement := do
  let _ ← word "DELETE" ++ blanks1 ++ modifiers ["LOW_PRIORITY", "QUICK", "IGNORE"] ++
    word "FROM" ++ blanks1
  let table ← name
  return .delete table (← rest)

/-- Reads a `SELECT` statement. -/
def selectForm : Form Statement := do
  let _ ← word "SELECT" ++ blanks1
  return .select (← rest)

/-- The statement that a text is. -/
def Statement.read? (text : List Char) : Option Statement :=
  (oneOf [updateForm, insertForm, deleteForm, selectForm]).read? text

/-- Reads the table after `FROM` and what comes after it. -/
def tableForm : Form (List Char × List Char) := do
  let _ ← blanks
  let table ← name
  return (table, ← rest)

/-- Reads a column of a projection: a name with an optional alias. -/
def columnForm : Form (List Char) := do
  let _ ← opt (word "DISTINCT" ++ blanks1)
  let column ← name
  let _ ← opt (blanks1 ++ opt (word "AS" ++ blanks1) ++ opt tick ++ span1 Unicode.isWord ++ opt tick)
  done
  return column

/-- Characters a plain column name starts with. -/
def isNameStart (c : Char) : Bool :=
  c.isAlpha || c == '_'

/-- Reads a plain column name whose later characters pass a test. -/
def plainName (p : Char → Bool) : Form (List Char) :=
  opt tick ++ char isNameStart ++ span p ++ opt tick

/-- Reads a column with its table, and nothing after it. -/
def columnReference : Form Unit := do
  let _ ← plainName Unicode.isWord ++ dot ++ plainName Unicode.isWord
  done

/-- Reads arithmetic that starts with a column. -/
def columnArithmetic : Form Unit := do
  let _ ← plainName isNameChar ++ opt (dot ++ plainName isNameChar) ++ blanks
  let _ ← char fun c => c == '-' || c == '+' || c == '*' || c == '/' || c == '%'
  let _ ← blanks ++ char (!Text.isBlank ·)

end SchemaLint.Sql
