import SchemaLint.Form
import SchemaLint.Nesting
import SchemaLint.Unicode.Word

/-!
# Calls of collection methods

A shell statement is `db.collection.verb(arguments)` or
`db.getCollection("collection").verb(arguments)`. What follows the parenthesis that closes the call
is not looked at. The verb decides how the arguments are laid out; a call with another verb is not
recognized.
-/

namespace SchemaLint.Shell

open Form

/-- How the arguments of a verb are laid out. -/
inductive Layout where
  /-- An optional query and an optional projection. -/
  | find
  /-- A query. -/
  | query
  /-- An optional query. -/
  | count
  /-- A query and an update. -/
  | update
  /-- A query and a document that replaces what it finds. -/
  | replace
  /-- A document. -/
  | insertOne
  /-- An array of documents. -/
  | insertMany
  deriving DecidableEq, Repr

/-- The layout of a verb. -/
def Layout.ofVerb? : String → Option Layout
  | "find" | "findOne" => some .find
  | "deleteOne" | "deleteMany" | "remove" | "findOneAndDelete" => some .query
  | "countDocuments" => some .count
  | "update" | "updateOne" | "updateMany" | "findOneAndUpdate" => some .update
  | "replaceOne" => some .replace
  | "insertOne" => some .insertOne
  | "insertMany" => some .insertMany
  | _ => none

/-- A call of a collection method. -/
structure Call where
  collection : String
  verb : String
  layout : Layout
  /-- The arguments, trimmed. -/
  args : List (List Char)
  deriving DecidableEq, Repr

/-- An argument, empty when there is none at its place. -/
def Call.arg (c : Call) (index : Nat) : List Char :=
  c.args.getD index []

/-- Reads the name of a collection in quotes. -/
def quotedName (quote : Char) : Form (List Char) := do
  let _ ← exact [quote]
  let name ← run1 (· != quote)
  let _ ← exact [quote]
  return name

/-- Reads `getCollection` with the name of a collection. -/
def getCollectionForm : Form (List Char) := do
  let _ ← exact "getCollection".toList ++ blanks ++ exact ['('] ++ blanks
  let name ← oneOf [quotedName '\x22', quotedName '\x27']
  let _ ← blanks ++ exact [')']
  return name

/-- Reads the collection and verb of a call up to the parenthesis that opens its arguments. -/
def callForm : Form (List Char × List Char) := do
  let _ ← exact ['d', 'b'] ++ blanks ++ exact ['.'] ++ blanks
  let collection ← oneOf [getCollectionForm, run1 fun c => Unicode.isWord c || c == '$']
  let _ ← blanks ++ exact ['.'] ++ blanks
  let verb ← run1 Unicode.isWord
  let _ ← blanks ++ exact ['(']
  return (collection, verb)

/-- The call that a statement is. -/
def Call.read? (statement : List Char) : Option Call := do
  let ((collection, verb), rest) ← (callForm statement).head?
  let layout ← Layout.ofVerb? (String.ofList verb)
  let opener := statement.length - rest.length - 1
  let (arguments, _) ←
    (Nesting.start.after (statement.take opener)).cutAtPartner? (statement.drop opener)
  return {
    collection := String.ofList collection
    verb := String.ofList verb
    layout
    args := splitTop ',' arguments }

end SchemaLint.Shell
