import SchemaLint.Nesting

/-!
# Names as they are written

A name may stand in quotes and may be qualified by dots, each segment quoted on its own.
-/

namespace SchemaLint.Identifier

/-- A text without the pair of equal quotes around it, if it has one; blanks at the ends go first. -/
def unquote (raw : List Char) : List Char :=
  match Text.trim raw with
  | [] => []
  | q :: r => if isQuote q && r.getLast? == some q then r.dropLast else q :: r

/-- The segments of a name between its dots. -/
def segments (name : List Char) : List (List Char) :=
  Text.pieces (· == '.') name

/-- A dotted name with the quotes of its segments removed. -/
def normalize (raw : List Char) : List Char :=
  ['.'].intercalate ((segments raw).map unquote)

/-- The last segment of a dotted name. -/
def unqualified (name : List Char) : List Char :=
  (segments name).getLast?.getD []

end SchemaLint.Identifier
