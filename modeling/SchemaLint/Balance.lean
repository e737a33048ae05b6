import SchemaLint.Nesting

/-!
# Unbalanced quotes and brackets

Outside quotes the three kinds of brackets are matched by a stack. A closing bracket closes back to
the nearest opening bracket of its kind, and the brackets skipped on the way are unbalanced; one
that finds no partner is unbalanced itself. What is left open at the end is unbalanced too, a quote
before brackets. Each kind is reported once, where it is first found.
-/

namespace SchemaLint

/-- A kind of quote or bracket. -/
inductive Delimiter where
  | singleQuote
  | doubleQuote
  | backtick
  | parenthesis
  | bracket
  | brace
  deriving DecidableEq, Repr

namespace Delimiter

/-- The kind of a quote. -/
def ofQuote? (c : Char) : Option Delimiter :=
  if c == '\x27' then some singleQuote
  else if c == '\x22' then some doubleQuote
  else if c == '\x60' then some backtick
  else none

/-- The kind of an opening bracket. -/
def ofOpener? (c : Char) : Option Delimiter :=
  if c == '(' then some parenthesis
  else if c == '[' then some bracket
  else if c == '\x7b' then some brace
  else none

/-- The kind of a closing bracket. -/
def ofCloser? (c : Char) : Option Delimiter :=
  if c == ')' then some parenthesis
  else if c == ']' then some bracket
  else if c == '\x7d' then some brace
  else none

/-- What is said of an unbalanced delimiter. -/
def message : Delimiter → String
  | singleQuote => "unbalanced single quotes"
  | doubleQuote => "unbalanced double quotes"
  | backtick => "unbalanced backticks"
  | parenthesis => "unbalanced parentheses"
  | bracket => "unbalanced square brackets"
  | brace => "unbalanced braces"

end Delimiter

/-- The kinds of brackets open, the innermost first, and the kinds found unbalanced, in order. -/
structure Balance where
  opened : List Delimiter
  problems : List Delimiter
  deriving DecidableEq, Repr

namespace Balance

/-- Reports a kind that has not been reported. -/
def report (problems : List Delimiter) (d : Delimiter) : List Delimiter :=
  if problems.contains d then problems else problems ++ [d]

/-- Closes the nearest open bracket of a kind. The brackets open inside it are reported, the
outermost first. -/
def close (b : Balance) (d : Delimiter) : Balance :=
  if b.opened.contains d then
    { opened := (b.opened.dropWhile (· != d)).drop 1
      problems := (b.opened.takeWhile (· != d)).reverse.foldl report b.problems }
  else { b with problems := report b.problems d }

/-- Reads a character outside quotes. -/
def step (b : Balance) (c : Char) : Balance :=
  match Delimiter.ofOpener? c, Delimiter.ofCloser? c with
  | some d, _ => { b with opened := d :: b.opened }
  | none, some d => b.close d
  | none, none => b

end Balance

/-- The characters of a text that are in no quote and are no quote. -/
def unquoted (s : List Char) : List Char :=
  ((marks s).filter (!·.quoted)).map (·.ch)

/-- The kinds of delimiters left unbalanced by a text, in the order in which they are found. -/
def unbalanced (s : List Char) : List Delimiter :=
  let b := (unquoted s).foldl Balance.step { opened := [], problems := [] }
  (((openQuote? s).bind Delimiter.ofQuote?).toList ++ b.opened.reverse).foldl Balance.report b.problems

end SchemaLint
