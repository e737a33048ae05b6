import SchemaLint.Nesting

/-!
# The statement on a line

A line holds one statement. It ends at the first `;`, `#` or `--` comment outside quotes and
brackets; what follows is not looked at. Blanks around the statement do not belong to it.
-/

namespace SchemaLint

/-- Tells whether a text starts with a comment: `#`, or `--` before a blank or the end. -/
def startsComment : List Char → Bool
  | '#' :: _ => true
  | '-' :: '-' :: rest => rest.head?.all Text.isBlank
  | _ => false

/-- Passes where the statement ends. -/
def statementEndsAt : PlaceTest :=
  fun _ rest => rest.head? == some ';' || startsComment rest

/-- The statement on a line. -/
def statementOf (line : List Char) : List Char :=
  match firstCut? statementEndsAt (Text.trim line) with
  | some (statement, _) => Text.trimEnd statement
  | none => Text.trimEnd (Text.trim line)

end SchemaLint
