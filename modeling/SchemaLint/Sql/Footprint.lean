import SchemaLint.Sql.Condition
import SchemaLint.Statement

/-!
# What an SQL statement touches

The fields and values of a statement come from its `SET` list, from the columns and rows of an
`INSERT`, from the projection of a `SELECT`, and from its `WHERE` clause.
-/

namespace SchemaLint.Sql

/-- The words that end a `WHERE` clause. -/
def clauseEnds : List String :=
  ["GROUP", "ORDER", "LIMIT", "HAVING", "UNION"]

/-- A text cut at its first `WHERE`: what is before it, and the clause up to the first word that
ends it. -/
def cutAtWhere (body : List Char) : List Char × Option (List Char) :=
  match cutAtKeyword? "WHERE" body with
  | none => (body, none)
  | some (before, clause) =>
    let ends : PlaceTest := fun before rest => clauseEnds.any fun w => isKeywordAt w before rest
    (before, some (Text.trim (((firstCut? ends clause).map (·.1)).getD clause)))

/-- What the `WHERE` clause of a text mentions, if it has one. -/
def whereMentions (body : List Char) : List Mention :=
  ((cutAtWhere body).2.map clauseMentions).getD []

/-- What a list of `column = value` items mentions; an item without `=` mentions nothing. -/
def setMentions (list : List Char) : List Mention :=
  (splitTop ',' list).filterMap fun item =>
    (cutAtTop? '=' item).map fun (column, value) => valueMention (fieldName column) value

/-- The text inside the parentheses that a text begins and ends with. -/
def inParentheses? : List Char → Option (List Char)
  | '(' :: s => if s.getLast? == some ')' then some s.dropLast else none
  | _ => none

/-- What the rows after `VALUES` mention, each value for the column at its place. -/
def rowMentions (columns : List String) (rows : List Char) : List Mention :=
  (splitTop ',' rows).flatMap fun row =>
    match inParentheses? row with
    | some values => (columns.zip (splitTop ',' values)).map fun (c, v) => valueMention c v
    | none => []

/-- What comes after `VALUES`, or after `VALUE` when there is no `VALUES`. -/
def afterValues? (s : List Char) : Option (List Char) :=
  ((cutAtKeyword? "VALUES" s).or (cutAtKeyword? "VALUE" s)).map (·.2)

/-- What an `INSERT` mentions after its table: columns with rows, or a `SET` list. -/
def insertMentions (body : List Char) : List Mention :=
  let body := Text.trimStart body
  if body.head? == some '(' then
    match cutAtPartner? body with
    | none => []
    | some (columns, rest) =>
      let columns := (splitTop ',' columns).map fieldName
      columns.map .touch ++ ((afterValues? (rest.drop 1)).map (rowMentions columns)).getD []
  else ((cutAtKeyword? "SET" body).map fun (_, list) => setMentions list).getD []

/-- The name of a table without its quotes. -/
def targetName (table : List Char) : String :=
  String.ofList (Identifier.normalize table)

/-- What a projection mentions: its items that are plain columns. -/
def projectionMentions (projection : List Char) : List Mention :=
  (splitTop ',' projection).filterMap fun item =>
    (columnForm.read? item).map fun column => .touch (fieldName column)

/-- What a `SELECT` touches; without a table it is not recognized. -/
def selectFootprint (body : List Char) : Footprint :=
  match cutAtKeyword? "FROM" body with
  | none => .unrecognized
  | some (projection, source) =>
    match tableForm.read? source with
    | none => .unrecognized
    | some (table, rest) =>
      .ofMentions (targetName table) (projectionMentions projection ++ whereMentions rest)

/-- What a statement touches. -/
def Statement.footprint : Statement → Footprint
  | update table body =>
    .ofMentions (targetName table) (setMentions (cutAtWhere body).1 ++ whereMentions body)
  | insert table body => .ofMentions (targetName table) (insertMentions body)
  | delete table body => .ofMentions (targetName table) (whereMentions body)
  | select body => selectFootprint body

/-- What the statement on a line touches. -/
def footprint (line : List Char) : Footprint :=
  ((Statement.read? (statementOf line)).map Statement.footprint).getD .unrecognized

end SchemaLint.Sql
