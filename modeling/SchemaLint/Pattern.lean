import SchemaLint.Pattern.Reader
import SchemaLint.Pattern.Search

/-!
# Patterns

A pattern is compiled once and then judges texts. A regular pattern is decided at all places of the
text at once; any other is searched step by step, and a search that takes too long counts as a
match.
-/

namespace SchemaLint

/-- A compiled pattern. -/
inductive Pattern where
  | regular (e : Pattern.Expr)
  | stepwise (p : Pattern.Program)

namespace Pattern

/-- Compiles a pattern; a text that is no pattern, or too large a one, gives none. -/
def compile? (pattern : String) : Option Pattern := do
  let reading ← read? pattern
  if reading.expr.isIrregular reading.referred then
    return .stepwise (← Program.ofExpr? reading.referred true reading.expr)
  else if reading.expr.isManageable then
    return .regular reading.expr
  else none

/-- Tells whether a pattern matches somewhere in a text. -/
def accepts (p : Pattern) (text : List Char) : Bool :=
  match p with
  | regular e => e.occursIn text
  | stepwise p => p.accepts text

end Pattern

end SchemaLint
