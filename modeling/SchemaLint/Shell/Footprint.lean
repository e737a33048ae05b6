import SchemaLint.Footprint
import SchemaLint.Shell.Call
import SchemaLint.Shell.Value
import SchemaLint.Statement

/-!
# What a call of a collection method touches

A query mentions its fields, with the scalars they are compared with; `$and`, `$or` and `$nor` hold
queries again, other operators at the top of a query are passed over. An update mentions the fields
of each of its operators, with the scalars that `$set` and `$inc` write. A document mentions its
top-level fields. Objects and arrays written as values are not looked into.
-/

namespace SchemaLint.Shell

/-- Update operators whose scalars are values of the field. -/
def assigningOperators : List String :=
  ["$set", "$inc"]

/-- Query operators that compare a field with one value. -/
def comparisonOperators : List String :=
  ["$eq", "$ne", "$gt", "$gte", "$lt", "$lte"]

/-- Query operators that compare a field with each item of an array. -/
def membershipOperators : List String :=
  ["$in", "$nin"]

/-- Operators that hold an array of queries. -/
def logicalOperators : List String :=
  ["$and", "$or", "$nor"]

/-- Tells whether a key is one of some operators. -/
def isAmong (operators : List String) (key : List Char) : Bool :=
  operators.contains (String.ofList key)

/-- A field that is only named. -/
def touched (field : List Char) : Mention :=
  .touch (String.ofList field)

/-- A field with a value. -/
def assigned (field value : List Char) : Mention :=
  .assign (String.ofList field) (String.ofList (Text.trim value))

/-- A regular expression between slashes. -/
def isRegexLiteral (s : List Char) : Bool :=
  s.head? == some '/' && 1 < s.length

/-- What an item of `$in` mentions for its field: a scalar is a value. -/
def memberMention? (field item : List Char) : Option Mention :=
  match Value.ofText item with
  | .scalar text => some (assigned field text)
  | _ => none

/-- What one operator of a condition mentions for its field. -/
def operatorMentions (field : List Char) (operator operand : List Char) : List Mention :=
  if isAmong comparisonOperators operator then (memberMention? field operand).toList
  else if isAmong membershipOperators operator then
    (Value.ofText operand).items.filterMap (memberMention? field)
  else []

/-- What a condition object mentions for its field; an object that is no condition is a value that
is not looked into. -/
def conditionMentions (field body : List Char) : List Mention :=
  let operators := entries body
  touched field ::
    if operators.all fun (key, _) => isOperator key then
      operators.flatMap fun (key, operand) => operatorMentions field key operand
    else []

/-- What a field of a query mentions. -/
def fieldMentions (field value : List Char) : List Mention :=
  match Value.ofText value with
  | .scalar text => if isRegexLiteral text then [touched field] else [assigned field text]
  | .array _ => [touched field]
  | .object body => conditionMentions field body

/-- What a query mentions, queries inside it nested up to a depth. -/
def queryMentionsTo : Nat → List Char → List Mention
  | 0, _ => []
  | depth + 1, query =>
    (entries query).flatMap fun (key, value) =>
      if isAmong logicalOperators key then
        (Value.ofText value).items.flatMap (queryMentionsTo depth)
      else if isOperator key then []
      else fieldMentions key value

/-- What a query mentions. A query inside another is shorter, so the length bounds the nesting. -/
def queryMentions (query : List Char) : List Mention :=
  queryMentionsTo (query.length + 1) query

/-- What a field written with a value mentions. -/
def writtenMention (field value : List Char) : Mention :=
  match Value.ofText value with
  | .scalar text => assigned field text
  | _ => touched field

/-- What a document mentions. -/
def documentMentions (document : List Char) : List Mention :=
  (entries document).filterMap fun (field, value) =>
    if isOperator field then none else some (writtenMention field value)

/-- What an update mentions; without operators it is a document. -/
def updateMentions (update : List Char) : List Mention :=
  let operators := entries update
  if operators.any fun (key, _) => isOperator key then
    operators.flatMap fun (operator, body) =>
      (entries body).map fun (field, value) =>
        if isAmong assigningOperators operator then writtenMention field value else touched field
  else documentMentions update

/-- What a projection mentions. -/
def projectionMentions (projection : List Char) : List Mention :=
  (entries projection).filterMap fun (field, _) =>
    if isOperator field then none else some (touched field)

/-- What a call mentions. -/
def Call.mentions (c : Call) : List Mention :=
  match c.layout with
  | .find => queryMentions (c.arg 0) ++ projectionMentions (c.arg 1)
  | .query | .count => queryMentions (c.arg 0)
  | .update => queryMentions (c.arg 0) ++ updateMentions (c.arg 1)
  | .replace => queryMentions (c.arg 0) ++ documentMentions (c.arg 1)
  | .insertOne => documentMentions (c.arg 0)
  | .insertMany => (Value.ofText (c.arg 0)).items.flatMap documentMentions

/-- What the statement on a line touches. -/
def footprint (line : List Char) : Footprint :=
  ((Call.read? (statementOf line)).map fun c => .ofMentions c.collection c.mentions).getD .unrecognized

end SchemaLint.Shell
