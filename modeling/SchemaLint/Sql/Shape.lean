import SchemaLint.Keyword
import SchemaLint.Shape
import SchemaLint.Sql.Form

/-!
# The shape of an SQL statement

The checks look for keywords outside quotes and brackets: an `INSERT` needs values, a `JOIN` needs
a condition before the next one unless it is `NATURAL` or `CROSS`, a `GROUP BY` or `ORDER BY` needs
a column, and a `HAVING` needs a `GROUP` before it.
-/

namespace SchemaLint.Sql

open Form

/-- Reads the verb of an `INSERT` or `REPLACE` as a whole word. -/
def insertVerb : Form Unit := do
  let _ ← oneOf [word "INSERT", word "REPLACE"]
  fun s => if s.head?.any Unicode.isWord then [] else [((), s)]

/-- An `INSERT` without `VALUES`, `SET` or `SELECT`. -/
def insertLacksValues (statement : List Char) : Bool :=
  insertVerb.fits statement &&
    ["VALUES", "VALUE", "SET", "SELECT"].all fun w => !hasKeyword w statement

/-- Tells whether one of the last two words of a text is `NATURAL` or `CROSS`. -/
def endsUnconditional (before : List Char) : Bool :=
  ((Text.words before).reverse.take 2).any fun w =>
    Text.sameIgnoringCase w "NATURAL".toList || Text.sameIgnoringCase w "CROSS".toList

/-- Tells whether one of some parts, each of which begins with `JOIN`, lacks a condition it needs. -/
def joinLacksCondition (before : List Char) : List (List Char) → Bool
  | [] => false
  | join :: later =>
    (!endsUnconditional before && !hasKeyword "ON" join && !hasKeyword "USING" join) ||
      joinLacksCondition (before ++ join) later

/-- Some `JOIN` of a statement lacks a condition. -/
def lacksJoinCondition (statement : List Char) : Bool :=
  match parts (isKeywordAt "JOIN") statement with
  | [] => false
  | before :: joins => joinLacksCondition before joins

/-- Words that end a list of columns and so do not start one. -/
def notColumns : List String :=
  ["LIMIT", "HAVING", "ORDER", "GROUP", "WITH", "ASC", "DESC"]

/-- Reads `BY` and the beginning of a column after it. -/
def byColumnForm : Form (List Char) := do
  let _ ← blanks ++ word "BY" ++ blanks1
  char (fun c => c == '\x60' || c == '(' || Unicode.isWord c) ++ run Unicode.isWord

/-- Tells whether what follows the first word of a clause is `BY` without a column. -/
def lacksByColumn (rest : List Char) : Bool :=
  Text.startsIgnoringCase ['b', 'y'] (Text.trimStart rest) &&
    !(byColumnForm.read? rest).any fun column =>
      notColumns.all fun w => !Text.sameIgnoringCase w.toList column

/-- The clauses of one kind that have no column. -/
def byProblems (statement : List Char) (clause : ByClause) : List ShapeProblem :=
  (partSuffixes (parts (isKeywordAt clause.keyword) statement)).filterMap fun rest =>
    if lacksByColumn (rest.drop clause.keyword.length) then some (.missingByColumn clause) else none

/-- A `HAVING` with no `GROUP` before it. -/
def lacksGroupBy (statement : List Char) : Bool :=
  (cutAtKeyword? "HAVING" statement).any fun (before, _) => !hasKeyword "GROUP" before

/-- The problems with the shape of a statement, in the order in which they are looked for. -/
def shapeProblems (statement : List Char) : List ShapeProblem :=
  (if insertLacksValues statement then [.insertWithoutValues] else []) ++
    (if lacksJoinCondition statement then [.joinWithoutCondition] else []) ++
    [ByClause.group, ByClause.order].flatMap (byProblems statement) ++
    (if lacksGroupBy statement then [.havingWithoutGroupBy] else [])

end SchemaLint.Sql
