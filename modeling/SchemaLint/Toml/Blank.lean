/-!
# Blanks, comments and the ends of lines

Within a line, spaces and tabs are blanks. A comment runs to the end of its line and holds no
control character. A line ends with a line feed, which may follow a carriage return.
-/

namespace SchemaLint.Toml

/-- Blanks within a line. -/
def isBlank (c : Char) : Bool :=
  c == ' ' || c == '\t'

/-- Characters that may stand as they are in comments and, quotes apart, in strings. -/
def isPlain (c : Char) : Bool :=
  c == '\t' || (0x20 ≤ c.toNat && c.toNat != 0x7f)

/-- Drops blanks. -/
def skipBlanks (s : List Char) : List Char :=
  s.dropWhile isBlank

/-- Drops a comment. -/
def skipComment (s : List Char) : List Char :=
  if s.head? == some '#' then s.dropWhile isPlain else s

/-- Drops the end of a line. -/
def lineBreak? : List Char → Option (List Char)
  | '\n' :: s => some s
  | '\r' :: '\n' :: s => some s
  | _ => none

/-- Drops the rest of a line on which nothing else may stand. -/
def endOfLine? (s : List Char) : Option (List Char) :=
  match skipComment (skipBlanks s) with
  | [] => some []
  | s => lineBreak? s

/-- Drops blanks, the ends of lines and comments, one of which may have begun. -/
def skipLines (inComment : Bool) : List Char → List Char
  | [] => []
  | c :: s =>
    if inComment && isPlain c then skipLines true s
    else if isBlank c || c == '\n' || (c == '\r' && s.head? == some '\n') then skipLines false s
    else if c == '#' then skipLines true s
    else c :: s

end SchemaLint.Toml
