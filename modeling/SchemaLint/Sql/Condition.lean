import SchemaLint.Footprint
import SchemaLint.Identifier
import SchemaLint.Keyword
import SchemaLint.Sql.Form

/-!
# Conditions of a `WHERE` clause

A clause is cut into conditions at the words `AND` and `OR` outside quotes and brackets; the `AND`
of a `BETWEEN` belongs to its condition. A condition may be negated and may be a group in
parentheses, which is a clause again; every other condition compares one column with values.
-/

namespace SchemaLint.Sql

open Form

/-- A column name without its quotes, qualifiers and blanks. -/
def fieldName (raw : List Char) : String :=
  String.ofList (Identifier.unqualified (Identifier.normalize (Text.words raw).flatten))

/-- A value written to a field or compared with it. A reference to a column and arithmetic that
starts with one are no literals, so they only mention the field. -/
def valueMention (field : String) (value : List Char) : Mention :=
  if columnReference.fits (Text.trim value) || columnArithmetic.fits (Text.trim value) then
    .touch field
  else .assign field (String.ofList (Text.trim value))

/-- A single condition. -/
inductive Condition where
  /-- A clause in parentheses. -/
  | group (clause : List Char)
  /-- `column IS [NOT] NULL`. -/
  | isNull (column : List Char)
  /-- `column [NOT] BETWEEN low AND high`. -/
  | between (column low high : List Char)
  /-- `column [NOT] IN (list)`. -/
  | isIn (column list : List Char)
  /-- `column [NOT] LIKE value`, or a comparison by an operator. -/
  | compare (column value : List Char)
  deriving DecidableEq, Repr

namespace Condition

/-- Reads the word `NOT` with blanks after it, if it is there. -/
def optNot : Form (List Char) :=
  opt (word "NOT" ++ blanks1)

/-- Reads `column IS [NOT] NULL`. -/
def isNullForm : Form Condition := do
  let column ← name
  let _ ← blanks1 ++ word "IS" ++ blanks1 ++ optNot ++ word "NULL"
  done
  return .isNull column

/-- Reads `column [NOT] BETWEEN low AND high`; the low end is as short as can be. -/
def betweenForm : Form Condition := do
  let column ← name
  let _ ← blanks1 ++ optNot ++ word "BETWEEN" ++ blanks1
  let low ← fewest1 fun _ => true
  let _ ← blanks1 ++ word "AND" ++ blanks1
  return .between column low (← rest1)

/-- Reads all that is left up to a closing parenthesis at the end of the text. -/
def upToLastParenthesis : Form (List Char) :=
  fun s => if s.getLast? == some ')' then [(s.dropLast, [])] else []

/-- Reads `column [NOT] IN (list)`. -/
def isInForm : Form Condition := do
  let column ← name
  let _ ← blanks1 ++ optNot ++ word "IN" ++ blanks ++ exact ['(']
  return .isIn column (← upToLastParenthesis)

/-- Reads `column [NOT] LIKE value`. -/
def likeForm : Form Condition := do
  let column ← name
  let _ ← blanks1 ++ optNot ++ word "LIKE" ++ blanks1
  return .compare column (← rest1)

/-- The comparison operators, the longer before those they start with. -/
def operators : List (List Char) :=
  [['<', '=', '>'], ['<', '='], ['>', '='], ['<', '>'], ['!', '='], ['='], ['<'], ['>']]

/-- Reads a comparison by an operator. -/
def compareForm : Form Condition := do
  let column ← name
  let _ ← blanks ++ oneOf (operators.map exact) ++ blanks
  return .compare column (← rest1)

/-- A text without the words `NOT` at its start; `n` bounds their number. -/
def dropNots : Nat → List Char → List Char
  | 0, s => s
  | n + 1, s =>
    if Text.startsIgnoringCase ['n', 'o', 't', ' '] s then dropNots n (Text.trimStart (s.drop 4))
    else s

/-- The clause inside the parentheses around a whole text. -/
def group? (s : List Char) : Option (List Char) :=
  match s.head?, cutAtPartner? s with
  | some '(', some (clause, [_]) => some clause
  | _, _ => none

/-- The condition that a text is, its negations aside. -/
def read? (text : List Char) : Option Condition :=
  let s := dropNots text.length (Text.trim text)
  match group? s with
  | some clause => some (.group clause)
  | none => (oneOf [isNullForm, betweenForm, isInForm, likeForm, compareForm]).read? s

/-- What a condition mentions, given what the clause of a group mentions. -/
def mentions (ofClause : List Char → List Mention) : Condition → List Mention
  | group clause => ofClause clause
  | isNull column => [.touch (fieldName column)]
  | between column low high => [valueMention (fieldName column) low, valueMention (fieldName column) high]
  | isIn column list =>
    .touch (fieldName column) ::
      if hasKeyword "SELECT" list then [] else (splitTop ',' list).map (valueMention (fieldName column))
  | compare column value => [valueMention (fieldName column) value]

end Condition

/-- Joins the parts of a clause that begin with `AND` or `OR` to conditions: a connective ends the
condition before it, unless it is the `AND` of the `BETWEEN` in there. -/
def joinConditions (condition : List Char) (bounded : Bool) : List (List Char) → List (List Char)
  | [] => [condition]
  | p :: ps =>
    let isAnd := Text.startsIgnoringCase ['a', 'n', 'd'] p
    if isAnd && !bounded && hasKeyword "BETWEEN" condition then
      joinConditions (condition ++ p) true ps
    else condition :: joinConditions (p.drop (if isAnd then 3 else 2)) false ps

/-- The conditions of a clause. -/
def conditions (clause : List Char) : List (List Char) :=
  match parts (fun before rest => isKeywordAt "AND" before rest || isKeywordAt "OR" before rest) clause with
  | [] => []
  | p :: ps => ((joinConditions p false ps).map Text.trim).filter (!·.isEmpty)

/-- What a clause mentions, groups nested up to a depth. -/
def clauseMentionsTo : Nat → List Char → List Mention
  | 0, _ => []
  | depth + 1, clause =>
    (conditions clause).flatMap fun text =>
      ((Condition.read? text).map (Condition.mentions (clauseMentionsTo depth))).getD []

/-- What a clause mentions. A group is shorter than the clause it stands in, so the length of the
clause bounds the nesting. -/
def clauseMentions (clause : List Char) : List Mention :=
  clauseMentionsTo (clause.length + 1) clause

end SchemaLint.Sql
