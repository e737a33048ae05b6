/-!
# Comments in class sources

A comment begins with `//` and ends before the line does, or begins with `/*` and ends with the next
`*/`. Inside a literal nothing begins a comment; a literal ends with its quote or with the line.
Taking comments out keeps the line ends, and leaves a blank for a comment of the second kind.
-/

namespace SchemaLint.ClassSource

/-- Where a reader of a class source stands. -/
inductive Mode where
  | code
  | lineComment
  | blockComment
  /-- In a literal that began with a quote. -/
  | literal (quote : Char)
  deriving DecidableEq, Repr

/-- Where a reader of code stands after a character that begins no comment. -/
def Mode.afterCode (c : Char) : Mode :=
  if c == '"' || c == '\x27' then literal c else code

/-- Where a reader of a literal stands after a character that is not escaped. -/
def Mode.afterLiteral (quote c : Char) : Mode :=
  if c == quote || c == '\n' then code else literal quote

/-- A text without its comments. -/
def withoutComments : Mode → List Char → List Char
  | _, [] => []
  | .code, '/' :: '/' :: s => withoutComments .lineComment s
  | .code, '/' :: '*' :: s => ' ' :: withoutComments .blockComment s
  | .code, c :: s => c :: withoutComments (.afterCode c) s
  | .lineComment, c :: s =>
    if c == '\n' then '\n' :: withoutComments .code s else withoutComments .lineComment s
  | .blockComment, '*' :: '/' :: s => withoutComments .code s
  | .blockComment, c :: s =>
    if c == '\n' then '\n' :: withoutComments .blockComment s else withoutComments .blockComment s
  | .literal quote, '\\' :: c :: s => '\\' :: c :: withoutComments (.literal quote) s
  | .literal quote, c :: s => c :: withoutComments (.afterLiteral quote c) s

end SchemaLint.ClassSource
